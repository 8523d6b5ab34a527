import Pint.Lib.Run
import Pint.Lib.Truncation
import Pint.Proof.Maps

/-!
# The cell that a reading marks

In exact arithmetic `gridify` gives a point of the map its cell. But it rounds toward zero, and it
takes the coordinate `GRID_NUM` back by one, for the edge of the map: so what is less than a cell
off the map gets the cell at the border, and `addObstacle` cannot know.

Everything is shown for one coordinate first. There `cellOf_inRange_iff` says which numbers get a
cell at all, and these are more than the axis has: the interval is open, and a cell longer at
both ends. On the axis the cell is the one that the number is in (`OnAxis.in_nearest`), and off
it the one at the border. For points both coordinates have to be in range, so a point off the map
gets a cell if and only if it is `Close` in both.

`marksRight_iff` says when a reading is marked as it should be, in every state of a run in which
`updateMap` looks at one. That no index leaves the map or the message there is `Room`, which the
scans before have kept.
-/

namespace Pint

open Prog

/-! ## Coordinates -/

/-- A coordinate of a point on the map. -/
def OnAxis (c : ℝ) : Prop := -8 ≤ c ∧ c < 8

def OffAxis (c : ℝ) : Prop := c < -8 ∨ 8 < c

/-- Less than a cell off. -/
def Close (c : ℝ) : Prop := -8.2 < c ∧ c < 8.2

/-- The cell of the axis that is next to a coordinate. -/
noncomputable def nearest (c : ℝ) : Int := min 79 (max 0 ⌊(c + 8) * 5⌋)

/-- What `gridify` does with a coordinate. -/
noncomputable def cellOf (c : ℝ) : Int :=
  let x := Truncation.trunc ((c + 8) * 5)
  if x = gridNum then x - 1 else x

theorem gridify_eq (p : PointD ℝ) : gridify p = ⟨cellOf p.x, cellOf p.y⟩ := by
  have hdiv : ∀ c : ℝ, Double.toInt ((c + ((8 : Int) : ℝ)) / interval)
      = Truncation.trunc ((c + 8) * 5) := by
    intro c
    rw [interval_real, div_div_eq_mul_div, div_one, Int.cast_ofNat]
    rfl
  unfold gridify cellOf offsetX offsetY
  simp only [hdiv]

/-- **Which coordinates get a cell.** -/
theorem cellOf_inRange_iff {c : ℝ} : (0 ≤ cellOf c ∧ cellOf c < gridNum) ↔ Close c := by
  have hrange := Truncation.trunc_inRange_iff (x := (c + 8) * 5) (n := 81) (by decide)
  have hclose : Close c ↔ -1 < (c + 8) * 5 ∧ (c + 8) * 5 < ((81 : Int) : ℝ) := by
    unfold Close
    push_cast
    constructor
    · rintro ⟨h1, h2⟩
      constructor <;> norm_num at h1 h2 ⊢ <;> linarith
    · rintro ⟨h1, h2⟩
      constructor <;> norm_num at h1 h2 ⊢ <;> linarith
  rw [hclose, ← hrange]
  unfold cellOf gridNum
  dsimp only
  split <;> omega

theorem cellOf_eq_nearest {c : ℝ} (h : Close c) : cellOf c = nearest c := by
  obtain ⟨h1, h2⟩ := h
  have htrunc := Truncation.trunc_eq_max (x := (c + 8) * 5) (by norm_num at h1 ⊢; linarith)
  have hfloor : ⌊(c + 8) * 5⌋ < 81 := by
    rw [Int.floor_lt]
    push_cast
    norm_num at h2
    linarith
  unfold cellOf nearest gridNum
  dsimp only
  rw [htrunc]
  split <;> omega

theorem OnAxis.close {c : ℝ} (h : OnAxis c) : Close c := by
  obtain ⟨h1, h2⟩ := h
  constructor <;> norm_num <;> linarith

/-- A coordinate of the map is in its cell. -/
theorem OnAxis.in_nearest {c : ℝ} (h : OnAxis c) :
    nearest c * 0.2 - 8 ≤ c ∧ c < (nearest c + 1) * 0.2 - 8 := by
  obtain ⟨h1, h2⟩ := h
  have hnonneg : 0 ≤ ⌊(c + 8) * 5⌋ := Int.floor_nonneg.mpr (by linarith)
  have hlt : ⌊(c + 8) * 5⌋ < 80 := Int.floor_lt.mpr (by push_cast; linarith)
  have hcell : nearest c = ⌊(c + 8) * 5⌋ := by
    unfold nearest
    omega
  have hle := Int.floor_le ((c + 8) * 5)
  have hgt := Int.lt_floor_add_one ((c + 8) * 5)
  rw [hcell]
  constructor <;> norm_num <;> linarith

/-- The middle of a cell is in it. -/
theorem cellOf_middle {i : Int} (h0 : 0 ≤ i) (h : i < gridNum) :
    cellOf ((i : ℝ) * (1 / 5) + 1 / 5 / 2.0 - 8) = i := by
  have hmul : ((i : ℝ) * (1 / 5) + 1 / 5 / 2.0 - 8 + 8) * 5 = i + 1 / 2 := by
    norm_num
    ring
  have hfloor : ⌊(i : ℝ) + 1 / 2⌋ = i := by
    rw [Int.floor_eq_iff]
    constructor <;> linarith
  have hpos : (0 : ℝ) ≤ (i : ℝ) + 1 / 2 := by
    have : (0 : ℝ) ≤ i := by exact_mod_cast h0
    linarith
  unfold cellOf
  dsimp only
  rw [hmul, Truncation.trunc_of_nonneg hpos, hfloor]
  exact if_neg (by omega)

/-- **The middle of a cell gets this cell.** -/
theorem gridify_degridify {i j : Int} (h : InGrid i j) :
    gridify (degridify i j : PointD ℝ) = ⟨i, j⟩ := by
  have hmid : ∀ k : Int, (k : ℝ) * interval + interval / 2.0 - ((8 : Int) : ℝ)
      = (k : ℝ) * (1 / 5) + 1 / 5 / 2.0 - 8 := by
    intro k
    rw [interval_real, Int.cast_ofNat]
  rw [gridify_eq]
  unfold degridify offsetX offsetY
  rw [hmid, hmid, cellOf_middle h.1 h.2.1, cellOf_middle h.2.2.1 h.2.2.2]

/-! ## Points -/

def OnMap (p : PointD ℝ) : Prop := OnAxis p.x ∧ OnAxis p.y

def OffMap (p : PointD ℝ) : Prop := OffAxis p.x ∨ OffAxis p.y

/-- The square of a cell. -/
def InSquare (i j : Int) (p : PointD ℝ) : Prop :=
  (i * 0.2 - 8 ≤ p.x ∧ p.x < (i + 1) * 0.2 - 8) ∧ (j * 0.2 - 8 ≤ p.y ∧ p.y < (j + 1) * 0.2 - 8)

theorem inGrid_gridify_iff {p : PointD ℝ} :
    InGrid (gridify p).x (gridify p).y ↔ Close p.x ∧ Close p.y := by
  rw [gridify_eq, ← cellOf_inRange_iff, ← cellOf_inRange_iff]
  unfold InGrid
  dsimp only
  exact and_assoc.symm

theorem gridify_eq_nearest {p : PointD ℝ} (hx : Close p.x) (hy : Close p.y) :
    gridify p = ⟨nearest p.x, nearest p.y⟩ := by
  rw [gridify_eq, cellOf_eq_nearest hx, cellOf_eq_nearest hy]

namespace Mapper

/-! ## One reading -/

section Reading

variable {s : Mapper ℝ} {n : Nat} {p : PointD ℝ}

/-- A reading at this point, as the loop of `updateMap` looks at it. -/
noncomputable def mark (p : PointD ℝ) (s : Mapper ℝ) : Except Fault (Mapper ℝ) :=
  execute (discard <| addObstacle (gridify p)) s

theorem mark_spec (h : s.Room n) (hn : n < 128) (p : PointD ℝ) :
    ∃ s', mark p s = .ok s' ∧ Marked (gridify p) s s' := by
  obtain ⟨hx, hy⟩ := gridify_ne p
  have hwp : wp (discard <| addObstacle (gridify p)) (fun _ s' => Marked (gridify p) s s')
      (fun _ => False) s := wp_discard.mpr (addObstacle_marked h hn hx hy)
  obtain ⟨_, s', hrun, hm⟩ := hwp.exists_run
  refine ⟨s', ?_, hm⟩
  unfold mark execute
  rw [hrun]

/-- Where a cell is counted. -/
theorem Marked.counts {obs : PointI} {s' : Mapper ℝ} (hm : Marked obs s s')
    (hin : InGrid obs.x obs.y) (hle : s.obstacleMap obs.x obs.y ≤ obsThres) :
    s'.obstacleMap = countAt s.obstacleMap obs.x obs.y := by
  cases hm with
  | ignored h => exact absurd (h hin) (by omega)
  | counted _ _ => rfl
  | announced _ _ _ _ _ _ _ => rfl

/-- Where nothing changes. -/
theorem Marked.same {obs : PointI} {s' : Mapper ℝ} (hm : Marked obs s s')
    (h : InGrid obs.x obs.y → obsThres < s.obstacleMap obs.x obs.y) : s' = s := by
  cases hm with
  | ignored _ => rfl
  | counted hin hlow => exact absurd (h hin) (by omega)
  | announced hin heq _ _ _ _ _ => exact absurd (h hin) (by omega)

/-- A reading is marked as it should be: on the map in its cell, off the map nowhere. -/
structure MarksRight (s : Mapper ℝ) (p : PointD ℝ) : Prop where
  inside : OnMap p → ∃ i j s', InGrid i j ∧ InSquare i j p ∧ mark p s = .ok s' ∧
    s'.obstacleMap
      = if obsThres < s.obstacleMap i j then s.obstacleMap else countAt s.obstacleMap i j
  outside : OffMap p → ∃ s', mark p s = .ok s' ∧ s'.obstacleMap = s.obstacleMap ∧
    s'.sendMsg = s.sendMsg
  middle : ∀ i j, InGrid i j → gridify (degridify i j : PointD ℝ) = ⟨i, j⟩

/-- Off the map, but less than a cell, where the cell at the border is no obstacle yet. -/
def Phantom (s : Mapper ℝ) (p : PointD ℝ) : Prop :=
  OffMap p ∧ Close p.x ∧ Close p.y ∧ s.obstacleMap (nearest p.x) (nearest p.y) ≤ obsThres

theorem marks_inside (h : s.Room n) (hn : n < 128) (hp : OnMap p) :
    ∃ i j s', InGrid i j ∧ InSquare i j p ∧ mark p s = .ok s' ∧ s'.obstacleMap
      = if obsThres < s.obstacleMap i j then s.obstacleMap else countAt s.obstacleMap i j := by
  have hcell := gridify_eq_nearest hp.1.close hp.2.close
  have hin := inGrid_gridify_iff.mpr ⟨hp.1.close, hp.2.close⟩
  obtain ⟨s', hmark, hm⟩ := mark_spec h hn p
  rw [hcell] at hin hm
  refine ⟨_, _, s', hin, ⟨hp.1.in_nearest, hp.2.in_nearest⟩, hmark, ?_⟩
  split
  · rename_i hsat
    rw [hm.same fun _ => hsat]
  · rename_i hlow
    exact hm.counts hin (Int.not_lt.mp hlow)

/-- **A point off the map is left out, or it is a phantom.** -/
theorem marks_outside_iff (h : s.Room n) (hn : n < 128) (hp : OffMap p) :
    (∃ s', mark p s = .ok s' ∧ s'.obstacleMap = s.obstacleMap ∧ s'.sendMsg = s.sendMsg) ↔
      ¬ Phantom s p := by
  obtain ⟨s', hmark, hm⟩ := mark_spec h hn p
  constructor
  · rintro ⟨t, ht, hmap, -⟩ ⟨-, hx, hy, hle⟩
    obtain rfl := Except.ok.inj (hmark.symm.trans ht)
    rw [gridify_eq_nearest hx hy] at hm
    have hin := inGrid_gridify_iff.mpr ⟨hx, hy⟩
    rw [gridify_eq_nearest hx hy] at hin
    have hcount := congrFun (congrFun ((hm.counts hin hle).symm.trans hmap) (nearest p.x))
      (nearest p.y)
    unfold countAt at hcount
    rw [if_pos ⟨rfl, rfl⟩] at hcount
    dsimp only at hcount
    omega
  · intro hreal
    refine ⟨s', hmark, ?_⟩
    obtain rfl := hm.same fun hin => by
      obtain ⟨hx, hy⟩ := inGrid_gridify_iff.mp hin
      rw [gridify_eq_nearest hx hy]
      exact Int.not_le.mp fun hle => hreal ⟨hp, hx, hy, hle⟩
    exact ⟨rfl, rfl⟩

theorem Room.marks_iff (h : s.Room n) (hn : n < 128) : MarksRight s p ↔ ¬ Phantom s p := by
  constructor
  · intro hright hphantom
    exact (marks_outside_iff h hn hphantom.1).mp (hright.outside hphantom.1) hphantom
  · intro hreal
    exact
      { inside := marks_inside h hn
        outside := fun hp => (marks_outside_iff h hn hp).mpr hreal
        middle := fun i j hin => gridify_degridify hin }

end Reading

/-! ## Runs -/

section Runs

variable {R : Type} [Double R]

/-- What `updateMap` does before it looks at the readings. -/
def beginScan (data : CommRangePoseData R) (s : Mapper R) : Mapper R :=
  { s with
    currentPose := some (gridify (⟨data.pose 0, data.pose 1⟩ : PointD R))
    sendMsg := { s.sendMsg with obsCount := 0 } }

/-- The state in which `updateMap` looks at a reading of a scan, after these scans. -/
def atReading (pipes : CArray TypedPipe) (scans : List (CommRangePoseData R))
    (data : CommRangePoseData R) (i : Fin 16) : Except Fault (Mapper R) := do
  let s ← runAll (fun data => execute (updateMap data)) scans (start pipes)
  execute (addObstacles data ((List.finRange 16).take i)) (s.beginScan data)

theorem addObstacles_append (data : CommRangePoseData R) (is js : List (Fin 16)) :
    addObstacles data (is ++ js) = (do
      addObstacles data is
      addObstacles data js) := by
  induction is with
  | nil => rfl
  | cons i is ih =>
    rw [List.cons_append, addObstacles, addObstacles, ih, bind_assoc]

/-- **The readings that `updateMap` looks at**, one after the other. -/
theorem updateMap_reading (data : CommRangePoseData R) (i : Fin 16) :
    addObstacles data (List.finRange 16) = (do
      addObstacles data ((List.finRange 16).take i)
      discard <| addObstacle (gridify (obstacleOf data i))
      addObstacles data ((List.finRange 16).drop (i + 1))) := by
  have hsplit : (List.finRange 16).take i ++ i :: (List.finRange 16).drop (i + 1)
      = List.finRange 16 := by
    have hi : (i : Nat) < (List.finRange 16).length := by
      rw [List.length_finRange]
      exact i.isLt
    have hget : (List.finRange 16)[(i : Nat)] = i := by simp
    conv_rhs =>
      rw [← List.take_append_drop i (List.finRange 16), List.drop_eq_getElem_cons hi, hget]
  conv_lhs => rw [← hsplit]
  rw [addObstacles_append, addObstacles]

omit [Double R] in
theorem room_start (pipes : CArray TypedPipe) : Room 0 (start pipes : Mapper R) :=
  ⟨le_refl _, le_refl _, rfl, rfl⟩

theorem Room.beginScan {n : Nat} {s : Mapper R} (h : Room n s) (data : CommRangePoseData R) :
    Room 0 (s.beginScan data) := ⟨le_refl _, le_refl _, h.obsX, h.obsY⟩

omit [Double R] in
theorem Room.mono {n m : Nat} {s : Mapper R} (h : Room n s) (hnm : n ≤ m) : Room m s :=
  ⟨h.nonneg, h.le.trans (by omega), h.obsX, h.obsY⟩

theorem addObstacles_room {n : Nat} {s : Mapper R} (h : Room n s) (data : CommRangePoseData R)
    (is : List (Fin 16)) (hn : n + is.length ≤ 128) :
    wp (addObstacles data is) (fun _ s' => Room (n + is.length) s') (fun _ => False) s :=
  addObstacles_rule (fun _ _ h => h) (fun _ _ _ _ h hm => hm.room h) h hn

/-- A scan leaves no more than 16 obstacles in the message. -/
theorem updateMap_room {n : Nat} {s : Mapper R} (h : Room n s) (data : CommRangePoseData R) :
    wp (updateMap data) (fun _ s' => Room 16 s') (fun _ => True) s := by
  unfold updateMap
  rw [wp_bind, wp_modify, wp_bind]
  refine (addObstacles_room (h.beginScan data) data _ (by simp)).mono (fun _ t ht => ?_)
    fun _ _ => trivial
  rw [wp_bind, wp_get, wp_bind, wp_set, wp_bind]
  refine wp_lift (fun pipe _ => ?_) fun _ _ => trivial
  rw [wp_bind]
  refine wp_lift (fun sent _ => ?_) fun _ _ => trivial
  exact ⟨ht.nonneg, ht.le, ht.obsX, ht.obsY⟩

theorem atReading_room {pipes : CArray TypedPipe} {scans : List (CommRangePoseData R)}
    {data : CommRangePoseData R} {i : Fin 16} {s : Mapper R}
    (h : atReading pipes scans data i = .ok s) : Room 16 s := by
  obtain ⟨t, hscans, hs⟩ := bind_ok h
  have ht : Room 16 t := by
    refine runAll.invariant (I := Room 16) (fun data u v hu hv => ?_)
      ((room_start pipes).mono (by omega)) hscans
    have hwp := updateMap_room hu data
    unfold execute at hv
    split at hv
    · rename_i hrun
      obtain rfl := Except.ok.inj hv
      exact hwp.of_run hrun
    · cases hv
  have hwp := addObstacles_room (ht.beginScan data) data ((List.finRange 16).take i)
    (by rw [List.length_take, List.length_finRange]; omega)
  unfold execute at hs
  split at hs
  · rename_i hrun
    obtain rfl := Except.ok.inj hs
    exact (hwp.of_run hrun).mono (by rw [List.length_take, List.length_finRange]; omega)
  · cases hs

end Runs

/-- **When a reading is marked as it should be**: if it is no phantom, that is, a point off the map
that is counted at a border cell. The state is any in which a scan gets to its reading. -/
theorem marksRight_iff {pipes : CArray TypedPipe} {scans : List (CommRangePoseData ℝ)}
    {data : CommRangePoseData ℝ} {i : Fin 16} {s : Mapper ℝ}
    (h : atReading pipes scans data i = .ok s) :
    MarksRight s (obstacleOf data i) ↔ ¬ Phantom s (obstacleOf data i) :=
  (atReading_room h).marks_iff (by decide)

/-- A scan from here, where every reading is at the robot. -/
noncomputable def scanAt (x y : ℝ) : CommRangePoseData ℝ :=
  { ranges := fun _ => 0, pose := ![x, y, 0] }

theorem obstacleOf_scanAt (x y : ℝ) (i : Fin 16) : obstacleOf (scanAt x y) i = ⟨x, y⟩ := by
  unfold obstacleOf scanAt
  simp

/-- After a scan from elsewhere, the fourth reading of a scan from the origin. -/
theorem marksRight_iff_origin : ∃ s : Mapper ℝ,
    atReading (restMapper (R := ℝ)).pipes [scanAt 1 1] (scanAt 0 0) 3 = .ok s ∧
      MarksRight s (obstacleOf (scanAt 0 0) 3) := by
  have hwired : Wired (start (restMapper (R := ℝ)).pipes : Mapper ℝ).toMapperPipes 4 :=
    ⟨⟨.mapUpdate, 0, 4⟩, rfl, rfl, rfl, by decide⟩
  obtain ⟨t, us, hscans, -, ht⟩ := (sound_start hwired).scans [scanAt 1 1]
  have hroom : Room 0 (t.beginScan (scanAt 0 0)) := ⟨le_refl _, le_refl _, ht.obsX, ht.obsY⟩
  obtain ⟨_, s, hrun, -⟩ := (addObstacles_room hroom (scanAt 0 0) ((List.finRange 16).take 3)
    (by decide)).exists_run
  have hreading : atReading (restMapper (R := ℝ)).pipes [scanAt 1 1] (scanAt 0 0) 3 = .ok s := by
    unfold atReading
    rw [hscans]
    show execute _ _ = _
    unfold execute
    rw [show (3 : Fin 16).val = 3 from rfl, hrun]
  refine ⟨s, hreading, (marksRight_iff hreading).mpr fun hphantom => ?_⟩
  obtain ⟨hoff, -⟩ := hphantom
  rw [obstacleOf_scanAt] at hoff
  rcases hoff with (h | h) | (h | h)
  · norm_num at h
  · norm_num at h
  · norm_num at h
  · norm_num at h

/-- **A reading from just off the map** marks a cell at its border. -/
theorem phantom_marked : ∃ s : Mapper ℝ,
    atReading (.filled 3 {}) [] (scanAt (-8.1) 0) 0 = .ok s ∧
      ¬ MarksRight s (obstacleOf (scanAt (-8.1) 0) 0) := by
  refine ⟨_, rfl, fun hright => ?_⟩
  have hroom := (room_start (.filled 3 {})).beginScan (scanAt (-8.1) 0)
  refine (hroom.marks_iff (by decide)).mp hright ?_
  rw [obstacleOf_scanAt]
  refine ⟨Or.inl (Or.inl (by norm_num)), ?_, ?_, by decide⟩
  · constructor <;> norm_num
  · constructor <;> norm_num

end Mapper

end Pint
