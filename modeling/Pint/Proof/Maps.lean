import Pint.Lib.Run
import Pint.Program.AStar
import Pint.Program.Mapper
import Pint.Proof.Exact
import Pint.Proof.MapUpdates

/-!
# The Mapper and the planner have the same map

The Mapper counts how often a cell was seen, and announces it when the count passes
`OBS_THRES`. `Mapping` says what a count is worth: the cells announced so far are exactly
those with a count above the threshold, each of them once. What `addObstacle` does (`Marked`)
preserves it, and so do the loop over a scan and every run of scans. A count passes the
threshold by one step, in the one call that announces the cell, and a cell above the threshold is
not counted any more: so it is announced once, and its count stays.

The message is a part of the invariant. A scan has 16 readings and so announces at most 16 cells,
the arrays have 128 places, and the count of the message starts at 0 with every scan: that is
`Room`, and why no index leaves the arrays.

The planner marks what is announced, so its map is the set of announced cells (`maps_agree`).
What else it does on the way, the search and the waypoints, leaves its map alone, and with it
all that its acknowledgements depend on (`Kept`).

Nothing here depends on the arithmetic: the readings may be anything, and `gridify` may send
them anywhere but to the coordinate `GRID_NUM`, which `addObstacle` would let pass.
-/

namespace Pint

open Prog

variable {R : Type}

/-- `gridify` never answers the coordinate `GRID_NUM`. -/
theorem gridify_ne [Double R] (p : PointD R) :
    (gridify p).x ≠ gridNum ∧ (gridify p).y ≠ gridNum := by
  unfold gridify
  constructor
  · dsimp only
    split <;> omega
  · dsimp only
    split <;> omega

theorem Grid.get_ok {α : Type} {m : Grid α} {x y : Int} (h : InGrid x y) :
    m.get x y = .ok (m x y) := if_pos h

theorem Grid.set_ok {α : Type} {m : Grid α} {x y : Int} (h : InGrid x y) (a : α) :
    m.set x y a = .ok fun i j => if i = x ∧ j = y then a else m i j := if_pos h

/-! ## The Mapper -/

namespace Mapper

/-- What the counts are worth, when these cells were announced. -/
structure Mapping (cells : List (Int × Int)) (m : Grid Int) : Prop where
  range : ∀ x y, 0 ≤ m x y ∧ m x y ≤ obsThres + 1
  nodup : cells.Nodup
  mem : ∀ x y, (x, y) ∈ cells ↔ InGrid x y ∧ obsThres < m x y

/-- One more at a cell. -/
def countAt (m : Grid Int) (x y : Int) : Grid Int :=
  fun i j => if i = x ∧ j = y then m x y + 1 else m i j

theorem Mapping.range_countAt {cells : List (Int × Int)} {m : Grid Int} (h : Mapping cells m)
    {x y : Int} (hle : m x y ≤ obsThres) (i j : Int) :
    0 ≤ countAt m x y i j ∧ countAt m x y i j ≤ obsThres + 1 := by
  have hxy := h.range x y
  unfold countAt
  split
  · omega
  · exact h.range i j

/-- Counting a cell up, below the threshold. -/
theorem Mapping.count {cells : List (Int × Int)} {m : Grid Int} (h : Mapping cells m)
    {x y : Int} (hlow : m x y < obsThres) : Mapping cells (countAt m x y) := by
  refine ⟨h.range_countAt (by omega), h.nodup, ?_⟩
  intro i j
  rw [h.mem]
  unfold countAt
  split
  · rename_i hij
    obtain ⟨rfl, rfl⟩ := hij
    exact ⟨fun hc => absurd hc.2 (by omega), fun hc => absurd hc.2 (by omega)⟩
  · exact Iff.rfl

/-- Counting a cell up past the threshold, and announcing it. -/
theorem Mapping.announce {cells : List (Int × Int)} {m : Grid Int} (h : Mapping cells m)
    {x y : Int} (hin : InGrid x y) (heq : m x y = obsThres) :
    Mapping (cells ++ [(x, y)]) (countAt m x y) := by
  have hnew : (x, y) ∉ cells := by
    intro hmem
    have := ((h.mem x y).mp hmem).2
    omega
  refine ⟨h.range_countAt (by omega), ?_, ?_⟩
  · rw [List.nodup_append]
    refine ⟨h.nodup, List.nodup_cons.mpr ⟨List.not_mem_nil, List.nodup_nil⟩, ?_⟩
    intro a ha b hb hab
    rw [List.mem_singleton.mp hb] at hab
    exact hnew (hab ▸ ha)
  · intro i j
    rw [List.mem_append, h.mem, List.mem_singleton, Prod.mk.injEq]
    unfold countAt
    by_cases hij : i = x ∧ j = y
    · obtain ⟨rfl, rfl⟩ := hij
      rw [if_pos ⟨rfl, rfl⟩]
      exact ⟨fun _ => ⟨hin, by omega⟩, fun _ => Or.inr ⟨rfl, rfl⟩⟩
    · rw [if_neg hij]
      exact ⟨fun hc => hc.resolve_right hij, Or.inl⟩

/-- There is room in the message, after `n` readings. -/
structure Room (n : Nat) (s : Mapper R) : Prop where
  nonneg : 0 ≤ s.sendMsg.obsCount
  le : s.sendMsg.obsCount ≤ n
  obsX : s.sendMsg.obsX.size = 128
  obsY : s.sendMsg.obsY.size = 128

/-- In the middle of a scan, after `n` readings; `cells` were announced by earlier scans. -/
structure Scanning (cells : List (Int × Int)) (n : Nat) (s : Mapper R) : Prop
    extends Room n s where
  mapping : Mapping (cells ++ s.sendMsg.pairs) s.obstacleMap

/-- Only the map and the message changed. -/
def OnlyMapped (s s' : Mapper R) : Prop :=
  ∃ obstacleMap sendMsg, s' = { s with obstacleMap, sendMsg }

theorem OnlyMapped.refl (s : Mapper R) : OnlyMapped s s := ⟨_, _, rfl⟩

theorem OnlyMapped.trans {s t u : Mapper R} (h : OnlyMapped s t) (h' : OnlyMapped t u) :
    OnlyMapped s u := by
  obtain ⟨m, msg, rfl⟩ := h
  obtain ⟨m', msg', rfl⟩ := h'
  exact ⟨m', msg', rfl⟩

theorem pairs_eq_zip (msg : CommMapUpdate) :
    msg.pairs = (msg.obsX.front msg.obsCount.toNat).zip (msg.obsY.front msg.obsCount.toNat) := by
  unfold CommMapUpdate.pairs CArray.front
  rw [List.zip_map']

/-- Storing a pair behind the others. -/
theorem store_pair {msg : CommMapUpdate} {size : Nat} (hx : msg.obsX.size = size)
    (hy : msg.obsY.size = size) (h0 : 0 ≤ msg.obsCount) (hlt : msg.obsCount < size) (x y : Int) :
    ∃ obsX obsY, msg.obsX.set msg.obsCount x = .ok obsX ∧
      msg.obsY.set msg.obsCount y = .ok obsY ∧ obsX.size = size ∧ obsY.size = size ∧
      CommMapUpdate.pairs { msg with obsX, obsY, obsCount := msg.obsCount + 1 }
        = msg.pairs ++ [(x, y)] := by
  obtain ⟨k, hk⟩ := Int.eq_ofNat_of_zero_le h0
  obtain ⟨obsX, hsx, hsizex, hfx⟩ := CArray.set_front (a := msg.obsX) (n := k) (by omega) x
  obtain ⟨obsY, hsy, hsizey, hfy⟩ := CArray.set_front (a := msg.obsY) (n := k) (by omega) y
  refine ⟨obsX, obsY, hk ▸ hsx, hk ▸ hsy, hsizex.trans hx, hsizey.trans hy, ?_⟩
  have hk0 : msg.obsCount.toNat = k := by omega
  have hk1 : (msg.obsCount + 1).toNat = k + 1 := by omega
  rw [pairs_eq_zip, pairs_eq_zip, hk0]
  dsimp only
  rw [hk1, hfx, hfy, List.zip_append (by simp [CArray.front])]
  rfl

/-- What `addObstacle` does with a point: it is off the grid or an obstacle already, or it is
counted, or it is counted and announced. -/
inductive Marked (obs : PointI) (s : Mapper R) : Mapper R → Prop
  | ignored (h : InGrid obs.x obs.y → obsThres < s.obstacleMap obs.x obs.y) : Marked obs s s
  | counted (hin : InGrid obs.x obs.y) (hlow : s.obstacleMap obs.x obs.y < obsThres) :
      Marked obs s { s with obstacleMap := countAt s.obstacleMap obs.x obs.y }
  | announced (hin : InGrid obs.x obs.y) (heq : s.obstacleMap obs.x obs.y = obsThres)
      (obsX obsY : CArray Int) (hx : obsX.size = 128) (hy : obsY.size = 128)
      (hpairs : CommMapUpdate.pairs
          { s.sendMsg with obsX, obsY, obsCount := s.sendMsg.obsCount + 1 }
        = s.sendMsg.pairs ++ [(obs.x, obs.y)]) :
      Marked obs s { s with
        obstacleMap := countAt s.obstacleMap obs.x obs.y
        sendMsg := { s.sendMsg with obsX, obsY, obsCount := s.sendMsg.obsCount + 1 } }

section Marked

variable {cells : List (Int × Int)} {n : Nat} {s s' : Mapper R} {obs : PointI}

theorem addObstacle_marked (h : Room n s) (hn : n < 128) (hx : obs.x ≠ gridNum)
    (hy : obs.y ≠ gridNum) :
    wp (addObstacle obs) (fun _ s' => Marked obs s s') (fun _ => False) s := by
  unfold addObstacle
  rw [wp_ite]
  -- Off the map it is ignored. The code also lets the index `GRID_NUM` pass, which a reading in
  -- range does not have.
  split
  · rename_i hbounds
    refine Marked.ignored fun hin => ?_
    obtain ⟨h1, h2, h3, h4⟩ := hin
    omega
  · rename_i hbounds
    push Not at hbounds
    have hin : InGrid obs.x obs.y := ⟨hbounds.1, by omega, hbounds.2.2.1, by omega⟩
    rw [wp_bind, wp_get, wp_bind, wp_lift_ok (Grid.get_ok hin), wp_ite]
    split
    · rename_i hsat
      exact Marked.ignored fun _ => hsat
    · rename_i hlow
      rw [wp_bind, wp_lift_ok (Grid.set_ok hin _), wp_bind, wp_set]
      dsimp only
      rw [wp_ite]
      split
      · rename_i hpast
        have hcount : s.sendMsg.obsCount < (128 : Nat) := by
          have := h.le
          omega
        obtain ⟨obsX, obsY, hsx, hsy, hsizex, hsizey, hpairs⟩ :=
          store_pair h.obsX h.obsY h.nonneg hcount obs.x obs.y
        rw [wp_bind, wp_lift_ok hsx, wp_bind, wp_lift_ok hsy, wp_bind, wp_modify, wp_pure]
        exact Marked.announced hin (by omega) obsX obsY hsizex hsizey hpairs
      · exact Marked.counted hin (by omega)

theorem Marked.onlyMapped (hm : Marked obs s s') : OnlyMapped s s' := by
  cases hm with
  | ignored _ => exact OnlyMapped.refl s
  | counted _ _ => exact ⟨_, _, rfl⟩
  | announced _ _ _ _ _ _ _ => exact ⟨_, _, rfl⟩

theorem Marked.room (hm : Marked obs s s') (h : Room n s) : Room (n + 1) s' := by
  have hnonneg := h.nonneg
  have hle := h.le
  cases hm with
  | ignored _ => exact ⟨hnonneg, by omega, h.obsX, h.obsY⟩
  | counted _ _ => exact ⟨hnonneg, by dsimp only; omega, h.obsX, h.obsY⟩
  | announced _ _ obsX obsY hx hy _ =>
    exact ⟨by dsimp only; omega, by dsimp only; omega, hx, hy⟩

/-- What was announced is what is marked. -/
theorem Marked.mapping (hm : Marked obs s s')
    (h : Mapping (cells ++ s.sendMsg.pairs) s.obstacleMap) :
    Mapping (cells ++ s'.sendMsg.pairs) s'.obstacleMap := by
  cases hm with
  | ignored _ => exact h
  | counted _ hlow => exact h.count hlow
  | announced hin heq _ _ _ _ hpairs =>
    dsimp only
    rw [hpairs, ← List.append_assoc]
    exact h.announce hin heq

/-- **The step lemma.** Whatever the point, what was announced is what is marked. -/
theorem Marked.scanning (hm : Marked obs s s') (h : Scanning cells n s) :
    Scanning cells (n + 1) s' := ⟨hm.room h.toRoom, hm.mapping h.mapping⟩

end Marked

variable [Double R]

/-- **The rule for the loop over the readings.** -/
theorem addObstacles_rule {I : Nat → Mapper R → Prop} {data : CommRangePoseData R}
    {is : List (Fin 16)} {n : Nat} {s : Mapper R} (hroom : ∀ n s, I n s → Room n s)
    (hmark : ∀ n s obs s', I n s → Marked obs s s' → I (n + 1) s') (h : I n s)
    (hn : n + is.length ≤ 128) :
    wp (addObstacles data is) (fun _ s' => I (n + is.length) s') (fun _ => False) s := by
  induction is generalizing n s with
  | nil => exact h
  | cons i is ih =>
    rw [List.length_cons] at hn ⊢
    obtain ⟨hx, hy⟩ := gridify_ne (obstacleOf data i)
    rw [addObstacles, wp_bind, wp_discard]
    refine (addObstacle_marked (hroom n s h) (by omega) hx hy).imp fun _ t ht => ?_
    refine (ih (hmark n s _ t h ht) (by omega)).imp fun _ u hu => ?_
    rw [show n + (is.length + 1) = n + 1 + is.length by omega]
    exact hu

/-- The loop over the readings. -/
theorem addObstacles_spec {cells : List (Int × Int)} {data : CommRangePoseData R}
    {is : List (Fin 16)} {n : Nat} {s : Mapper R} (h : Scanning cells n s)
    (hn : n + is.length ≤ 128) :
    wp (addObstacles data is) (fun _ s' => Scanning cells (n + is.length) s' ∧ OnlyMapped s s')
      (fun _ => False) s := by
  refine addObstacles_rule (I := fun n t => Scanning cells n t ∧ OnlyMapped s t)
    (fun n t ht => ht.1.toRoom) (fun n t obs u ht hm => ?_) ⟨h, OnlyMapped.refl s⟩ hn
  exact ⟨hm.scanning ht.1, ht.2.trans hm.onlyMapped⟩

omit [Double R] in
/-- The pipe for updates is there, and can be written. -/
def Wired (c : MapperPipes) (fd : Int) : Prop :=
  ∃ pipe, c.pipes.get c.updateIndex = .ok pipe ∧ pipe.type = .mapUpdate ∧ pipe.fdOut = fd ∧
    fd ≠ 0

omit [Double R] in
/-- Between two scans, when these updates have been sent. -/
structure Sound (fd : Int) (updates : List CommMapUpdate) (s : Mapper R) : Prop where
  wired : Wired s.toMapperPipes fd
  mapping : Mapping (updates.flatMap CommMapUpdate.pairs) s.obstacleMap
  counts : ∀ u ∈ updates, 0 ≤ u.obsCount ∧ u.obsCount ≤ 16
  writes : s.writes = updates.map fun u => (fd, .mapUpdate u.wire)
  obsX : s.sendMsg.obsX.size = 128
  obsY : s.sendMsg.obsY.size = 128

/-- **One scan.** It sends one update with at most 16 obstacles. -/
theorem updateMap_spec {fd : Int} {updates : List CommMapUpdate} {s : Mapper R}
    (h : Sound fd updates s) (data : CommRangePoseData R) :
    wp (updateMap data) (fun _ s' => ∃ u, Sound fd (updates ++ [u]) s') (fun _ => False) s := by
  obtain ⟨pipe, hpipe, htype, hfd, hfd0⟩ := h.wired
  -- The new message starts empty, so what was announced so far is as it was.
  have hstart : Scanning (updates.flatMap CommMapUpdate.pairs) 0 { s with
      currentPose := some (gridify (⟨data.pose 0, data.pose 1⟩ : PointD R))
      sendMsg := { s.sendMsg with obsCount := 0 } } := by
    refine ⟨⟨le_refl _, le_refl _, h.obsX, h.obsY⟩, ?_⟩
    rw [show CommMapUpdate.pairs { s.sendMsg with obsCount := 0 } = [] from rfl, List.append_nil]
    exact h.mapping
  unfold updateMap
  rw [wp_bind, wp_modify, wp_bind]
  refine (addObstacles_spec hstart (by simp) :
    wp (addObstacles data (List.finRange 16)) _ _ _).imp ?_
  rintro _ t ⟨ht, m, msg, hs⟩
  have hpipes : t.toMapperPipes = s.toMapperPipes := by rw [hs]
  have hwrites : t.writes = s.writes := by rw [hs]
  have hle : t.sendMsg.obsCount ≤ 16 := ht.le
  have hget : t.pipes.get t.updateIndex = .ok pipe := by rw [hpipes, hpipe]
  rw [wp_bind, wp_get, wp_bind, wp_set, wp_bind, wp_lift_ok hget, wp_bind]
  generalize hpose : (if t.insertSDC = true then _ else _ : PointI) = pose
  have hx := ht.obsX
  have hy := ht.obsY
  have hsend : commSendMapUpdate (R := R) pipe
      { t.sendMsg with poseX := pose.x, poseY := pose.y } = .ok [_] :=
    commSendMapUpdate_eq (hfd ▸ hfd0) htype ht.nonneg (by dsimp only; omega)
      (by dsimp only; omega) (by dsimp only; omega)
  rw [wp_lift_ok hsend, wp_modify]
  refine ⟨{ t.sendMsg with poseX := pose.x, poseY := pose.y }, ?_, ?_, ?_, ?_, hx, hy⟩
  · exact hpipes ▸ h.wired
  · rw [List.flatMap_append, List.flatMap_singleton]
    exact ht.mapping
  · intro u hu
    rcases List.mem_append.mp hu with hu | hu
    · exact h.counts u hu
    · rw [List.mem_singleton.mp hu]
      exact ⟨ht.nonneg, hle⟩
  · rw [List.map_append, ← h.writes, ← hwrites, hfd]
    rfl

/-- The run lemma: scan after scan, one update each. -/
theorem Sound.scans {fd : Int} {updates : List CommMapUpdate} {s : Mapper R}
    (h : Sound fd updates s) (scans : List (CommRangePoseData R)) :
    ∃ s' us, runAll (fun data => execute (updateMap data)) scans s = .ok s' ∧
      us.length = scans.length ∧ Sound fd (updates ++ us) s' := by
  induction scans generalizing updates s with
  | nil => exact ⟨s, [], rfl, rfl, (List.append_nil updates).symm ▸ h⟩
  | cons data scans ih =>
    obtain ⟨⟨⟩, t, hrun, u, ht⟩ := (updateMap_spec h data).exists_run
    obtain ⟨s', us, hr, hlen, hs'⟩ := ih ht
    refine ⟨s', u :: us, ?_, by rw [List.length_cons, List.length_cons, hlen], ?_⟩
    · refine runAll_cons.mpr ⟨t, ?_, hr⟩
      unfold execute
      rw [hrun]
    · rwa [List.append_assoc] at hs'

omit [Double R] in
/-- A Mapper that `main` has just set up. -/
theorem sound_start {pipes : CArray TypedPipe} {fd : Int}
    (h : Wired (start pipes : Mapper R).toMapperPipes fd) :
    Sound fd [] (start pipes : Mapper R) := by
  refine ⟨h, ⟨fun x y => ?_, List.nodup_nil, fun x y => ?_⟩, ?_, rfl, rfl, rfl⟩
  · exact ⟨le_refl _, by show (0 : Int) ≤ obsThres + 1; decide⟩
  · refine iff_of_false List.not_mem_nil fun hc => ?_
    exact absurd hc.2 (by show ¬ obsThres < 0; decide)
  · intro u hu
    exact absurd hu List.not_mem_nil

end Mapper

/-! ## The planner -/

/-- The acknowledgement that a message is. -/
def Comm.ack : Comm R → Option CommAck
  | .commAck msg => some msg
  | _ => none

/-- The acknowledgements among what was written, with their descriptors. -/
def Writes.acks (writes : Writes R) : List (Int × CommAck) :=
  writes.filterMap fun w => w.2.ack.map (w.1, ·)

theorem Writes.acks_append (writes writes' : Writes R) :
    Writes.acks (writes ++ writes') = writes.acks ++ writes'.acks := List.filterMap_append

namespace AStar

/-- What the acknowledgements depend on, and those that were sent. -/
structure Acking where
  pipes : AStarPipes
  recvMapUpdate : CommMapUpdate
  fakeHash : Int
  insertSDC : Bool
  acks : List (Int × CommAck)

def acking (a : AStar R) : Acking where
  pipes := a.toAStarPipes
  recvMapUpdate := a.recvMapUpdate
  fakeHash := a.fakeHash
  insertSDC := a.insertSDC
  acks := Writes.acks a.writes

/-- What the search and the waypoints leave alone: what an update brings, and what the planner
answers to it. -/
structure Kept (a a' : AStar R) : Prop where
  obstacleMap : a'.obstacleMap = a.obstacleMap
  acking : a'.acking = a.acking

theorem Kept.refl (a : AStar R) : Kept a a := ⟨rfl, rfl⟩

theorem Kept.pipes {a a' : AStar R} (h : Kept a a') : a'.toAStarPipes = a.toAStarPipes :=
  congrArg Acking.pipes h.acking

theorem Kept.recvMapUpdate {a a' : AStar R} (h : Kept a a') :
    a'.recvMapUpdate = a.recvMapUpdate :=
  congrArg Acking.recvMapUpdate h.acking

theorem send_writes (index : Int) (msg : TypedPipe → Writes R) (a : AStar R) :
    wp (send index msg) (fun _ a' => ∃ pipe, a.pipes.get index = .ok pipe ∧
      a' = { a with writes := a.writes ++ msg pipe }) (fun _ => True) a := by
  unfold send
  rw [wp_bind, wp_get, wp_bind]
  exact wp_lift (fun pipe hpipe => ⟨pipe, hpipe, rfl⟩) fun _ _ => trivial

/-- A message that is no acknowledgement. -/
theorem send_kept {index : Int} {msg : TypedPipe → Writes R}
    (hmsg : ∀ pipe, Writes.acks (msg pipe) = []) (a : AStar R) :
    wp (send index msg) (fun _ a' => Kept a a') (fun _ => True) a := by
  apply wp.imp (send_writes index msg a)
  rintro _ _ ⟨pipe, -, rfl⟩
  refine ⟨rfl, ?_⟩
  unfold acking
  rw [Writes.acks_append, hmsg, List.append_nil]

theorem acks_commSendWaypoints (pipe : TypedPipe) (x y a nX nY nA : R) :
    Writes.acks (commSendWaypoints pipe x y a nX nY nA) = [] := by
  unfold commSendWaypoints sendOn
  split <;> rfl

variable [Double R]

theorem sendWaypoints_kept (a : AStar R) :
    wp sendWaypoints (fun _ a' => Kept a a') (fun _ => True) a := by
  unfold sendWaypoints
  rw [wp_bind, wp_modify, wp_bind, wp_get, wp_bind]
  refine wp_lift (fun popped _ => ?_) fun _ _ => trivial
  rw [wp_bind, wp_set]
  cases popped.1 with
  | none =>
    exact (send_kept (fun _ => acks_commSendWaypoints ..) _).imp fun _ a' h => ⟨h.1, h.2⟩
  | some current =>
    dsimp only
    rw [wp_bind]
    refine wp_lift (fun popped' _ => ?_) fun _ _ => trivial
    rw [wp_bind, wp_modify]
    cases popped'.1 with
    | none => exact ⟨rfl, rfl⟩
    | some next =>
      exact (send_kept (fun _ => acks_commSendWaypoints ..) _).imp fun _ a' h => ⟨h.1, h.2⟩

theorem command_kept (a : AStar R) :
    wp command (fun _ a' => Kept a a') (fun _ => True) a := by
  unfold command
  rw [wp_bind, wp_get, wp_bind]
  refine wp_lift (fun search _ => ?_) fun _ _ => trivial
  rw [wp_bind]
  refine wp_lift (fun found _ => ?_) fun _ _ => trivial
  match found with
  | none => trivial
  | some none => exact Kept.refl a
  | some (some goalNode) =>
    dsimp only
    rw [wp_bind]
    refine wp_lift (fun path _ => ?_) fun _ _ => trivial
    rw [wp_bind, wp_set, wp_ite]
    split
    · exact ⟨rfl, rfl⟩
    · exact (sendWaypoints_kept _).imp fun _ a' h => ⟨h.1, h.2⟩

theorem onWayReq_kept (readRet : Int) (a : AStar R) :
    wp (onWayReq readRet) (fun _ a' => Kept a a') (fun _ => True) a := by
  unfold onWayReq
  rw [wp_ite]
  split
  · rw [wp_bind, wp_get]
    split
    · trivial
    · rw [wp_ite]
      split
      · exact send_kept (fun _ => acks_commSendWaypoints ..) _
      · exact sendWaypoints_kept _
  · exact Kept.refl a

/-- The pipe for updates is there, and can be read; the arrays are as they were allocated. -/
structure Ready (a : AStar R) : Prop where
  pipe : ∃ pipe, a.pipes.get a.updatesIndex = .ok pipe ∧ pipe.type = .mapUpdate ∧ pipe.fdIn ≠ 0
  obsX : a.recvMapUpdate.obsX.size = 200
  obsY : a.recvMapUpdate.obsY.size = 200

omit [Double R] in
theorem Ready.kept {a a' : AStar R} (h : Ready a) (hk : Kept a a') : Ready a' := by
  refine ⟨?_, ?_, ?_⟩
  · rw [hk.pipes]
    exact h.pipe
  · rw [hk.recvMapUpdate]
    exact h.obsX
  · rw [hk.recvMapUpdate]
    exact h.obsY

/-- The loop over the obstacles marks them. -/
theorem applyObstacles_eq {msg : CommMapUpdate} {n index : Nat} {m : Grid Bool}
    (hx : index + n ≤ msg.obsX.size) (hy : index + n ≤ msg.obsY.size)
    (hin : ∀ p ∈ (List.range' index n).map fun i : Nat => (msg.obsX.cells i, msg.obsY.cells i),
      InGrid p.1 p.2) :
    ∃ m', applyObstacles msg n index m = .ok m' ∧ ∀ x y, m' x y = true ↔ m x y = true ∨
      (x, y) ∈ (List.range' index n).map fun i : Nat => (msg.obsX.cells i, msg.obsY.cells i) := by
  induction n generalizing index m with
  | zero => exact ⟨m, rfl, fun x y => (or_iff_left List.not_mem_nil).symm⟩
  | succ n ih =>
    rw [List.range'_succ, List.map_cons] at hin ⊢
    obtain ⟨m', happly, hm'⟩ := @ih (index + 1)
      (fun i j => if i = msg.obsX.cells index ∧ j = msg.obsY.cells index then true
        else m i j) (by omega) (by omega) fun p hp => hin p (List.mem_cons_of_mem _ hp)
    refine ⟨m', ?_, ?_⟩
    · have hgx := CArray.get_ok (a := msg.obsX) (i := (index : Int)) (by omega) (by omega)
      have hgy := CArray.get_ok (a := msg.obsY) (i := (index : Int)) (by omega) (by omega)
      have hset := Grid.set_ok (m := m) (hin _ List.mem_cons_self) true
      have hnext : (index : Int) + 1 = ((index + 1 : Nat) : Int) := by omega
      simp only [applyObstacles, hgx, hgy, bind, Except.bind, hset, hnext]
      exact happly
    · intro x y
      rw [hm', List.mem_cons, Prod.mk.injEq]
      by_cases hxy : x = msg.obsX.cells index ∧ y = msg.obsY.cells index
      · simp [hxy]
      · rw [if_neg hxy, or_iff_right hxy]

/-- A coordinate of the grid is a small number. -/
theorem wrapInt_inGrid {x y : Int} (h : InGrid x y) : wrapInt x = x ∧ wrapInt y = y := by
  obtain ⟨hx0, hx, hy0, hy⟩ := h
  unfold gridNum at hx hy
  exact ⟨wrapInt_of_small hx0 (by omega), wrapInt_of_small hy0 (by omega)⟩

/-- **One update.** It marks what it announces. -/
theorem onUpdate_spec {a : AStar R} (h : Ready a) {u : CommMapUpdate}
    (hcount : 0 ≤ u.obsCount ∧ u.obsCount ≤ 16) (hin : ∀ p ∈ u.pairs, InGrid p.1 p.2) :
    wp (onUpdate (mapUpdateReads (wireBytes u.wire)).1 (mapUpdateReads (wireBytes u.wire)).2)
      (fun _ a' => Ready a' ∧ ∀ x y, a'.obstacleMap x y = true ↔ a.obstacleMap x y = true ∨
        (x, y) ∈ u.pairs) (fun _ => True) a := by
  obtain ⟨pipe, hpipe, htype, hfd⟩ := h.pipe
  have hx := h.obsX
  have hy := h.obsY
  obtain ⟨readRet, got, hrecv, hpos, ⟨-, -, hgotcount, hgotpairs⟩, hsx, hsy⟩ :=
    @commRecvMapUpdate_eq u pipe a.recvMapUpdate hfd htype hcount.1 (by omega)
      (by omega) (by omega) []
  rw [List.append_nil] at hrecv
  -- The coordinates fit an `int` on the wire, so they come back as they were.
  have hpairs : got.pairs = u.pairs := by
    rw [hgotpairs]
    refine (List.map_congr_left fun p hp => ?_).trans (List.map_id u.pairs)
    obtain ⟨h1, h2⟩ := wrapInt_inGrid (hin p hp)
    rw [h1, h2]
    rfl
  have hin' : ∀ p ∈ got.pairs, InGrid p.1 p.2 := by
    rw [hpairs]
    exact hin
  obtain ⟨m, hm, hiff⟩ := @applyObstacles_eq got got.obsCount.toNat 0
    a.obstacleMap (by omega) (by omega) (by
      rw [← List.range_eq_range']
      exact hin')
  rw [← List.range_eq_range'] at hiff
  have hmarks : ∀ x y, m x y = true ↔ a.obstacleMap x y = true ∨ (x, y) ∈ u.pairs := by
    intro x y
    rw [← hpairs]
    exact hiff x y
  unfold onUpdate
  rw [wp_bind, wp_get, wp_bind, wp_lift_ok hpipe, wp_bind, wp_lift_ok hrecv, wp_bind, wp_set,
    wp_ite, if_pos hpos, wp_bind, wp_modify, wp_bind]
  rw [Nat.cast_zero] at hm
  rw [wp_lift_ok hm, wp_bind, wp_modify, wp_bind, wp_get, wp_bind]
  apply wp.imp (send_writes _ _ _)
  rintro _ b ⟨_, -, hb⟩
  have hready : Ready b := by
    rw [hb]
    exact ⟨h.pipe, hsx.trans hx, hsy.trans hy⟩
  have hmap : b.obstacleMap = m := by rw [hb]
  rw [wp_ite]
  split
  · refine (command_kept b).imp fun _ c hc => ⟨hready.kept hc, ?_⟩
    rw [hc.obstacleMap, hmap]
    exact hmarks
  · refine ⟨hready, ?_⟩
    rw [hmap]
    exact hmarks

/-- The end of a pass, which answers a request for waypoints. -/
def onRequest : Option Int → M R Unit
  | some readRet => onWayReq readRet
  | none => pure ()

/-- What is ready in one pass of the loop, and what `read` then answers. -/
abbrev Wake := Option (ReadResult × (Int → ReadResult)) × Option Int

/-- One pass of the loop, as a step. -/
def wake (w : Wake) (a : AStar R) : Except Fault (AStar R) := execute (turn w.1 w.2) a

omit [Double R] in
theorem execute_spec {x : M R Unit} {Q : Unit → AStar R → Prop} {E : Fault → Prop}
    {a a' : AStar R} (h : wp x Q E a) (hx : execute x a = .ok a') : Q () a' := by
  unfold execute at hx
  cases hr : x.run a with
  | error e =>
    rw [hr] at hx
    exact absurd hx (by simp)
  | ok r =>
    rw [hr] at hx
    obtain rfl := Except.ok.inj hx
    exact h.of_run (a := ()) hr

/-- A pass without an update. -/
theorem wake_kept {w : Option Int} {a a' : AStar R} (h : wake (none, w) a = .ok a') :
    Kept a a' := by
  refine execute_spec (Q := fun _ b => Kept a b) (E := fun _ => True) ?_ h
  unfold turn
  rw [wp_bind, wp_get, wp_ite]
  split
  · trivial
  · cases w with
    | none => exact Kept.refl a
    | some readRet => exact onWayReq_kept readRet a

/-- A pass with an update. -/
theorem wake_spec {a a' : AStar R} (h : Ready a) {u : CommMapUpdate}
    (hcount : 0 ≤ u.obsCount ∧ u.obsCount ≤ 16) (hin : ∀ p ∈ u.pairs, InGrid p.1 p.2)
    {w : Option Int} (hw : wake (some (mapUpdateReads (wireBytes u.wire)), w) a = .ok a') :
    Ready a' ∧ ∀ x y, a'.obstacleMap x y = true ↔ a.obstacleMap x y = true ∨ (x, y) ∈ u.pairs := by
  refine execute_spec (Q := fun _ b => Ready b ∧ ∀ x y, b.obstacleMap x y = true
    ↔ a.obstacleMap x y = true ∨ (x, y) ∈ u.pairs) (E := fun _ => True) ?_ hw
  unfold turn
  rw [wp_bind, wp_get, wp_ite]
  split
  · trivial
  · dsimp only
    rw [wp_bind]
    refine (onUpdate_spec h hcount hin).imp fun _ b hb => ?_
    cases w with
    | none => exact hb
    | some readRet =>
      refine (onWayReq_kept readRet b).imp fun _ c hc => ⟨hb.1.kept hc, ?_⟩
      rw [hc.obstacleMap]
      exact hb.2

/-- The run lemma: when these updates have arrived, what they announce is marked. -/
theorem Ready.wakes {a a' : AStar R} (h : Ready a) {updates : List CommMapUpdate}
    (hcounts : ∀ u ∈ updates, 0 ≤ u.obsCount ∧ u.obsCount ≤ 16)
    (hin : ∀ p ∈ updates.flatMap CommMapUpdate.pairs, InGrid p.1 p.2) {wakes : List Wake}
    (hwakes : wakes.filterMap Prod.fst = updates.map fun u => mapUpdateReads (wireBytes u.wire))
    (hrun : runAll wake wakes a = .ok a') (x y : Int) :
    a'.obstacleMap x y = true ↔ a.obstacleMap x y = true ∨
      (x, y) ∈ updates.flatMap CommMapUpdate.pairs := by
  induction wakes generalizing a updates with
  | nil =>
    obtain rfl := Except.ok.inj hrun
    cases updates with
    | nil => exact (or_iff_left List.not_mem_nil).symm
    | cons u us => exact absurd hwakes (by simp)
  | cons w wakes ih =>
    obtain ⟨b, hw, hrest⟩ := runAll_cons.mp hrun
    obtain ⟨reads, readRet⟩ := w
    cases reads with
    -- A pass without an update only answers a request.
    | none =>
      have hkept := wake_kept hw
      rw [ih (h.kept hkept) hcounts hin hwakes hrest, hkept.obstacleMap]
    | some reads =>
      cases updates with
      | nil => exact absurd hwakes (by simp)
      | cons u us =>
        simp only [List.filterMap_cons, List.map_cons, List.cons.injEq] at hwakes
        obtain ⟨rfl, hwakes⟩ := hwakes
        rw [List.flatMap_cons] at hin ⊢
        obtain ⟨hready, hmap⟩ := wake_spec h (hcounts u List.mem_cons_self)
          (fun p hp => hin p (List.mem_append_left _ hp)) hw
        rw [ih hready (fun v hv => hcounts v (List.mem_cons_of_mem _ hv))
          (fun p hp => hin p (List.mem_append_right _ hp)) hwakes hrest, hmap, List.mem_append,
          or_assoc]

end AStar

/-! ## Both together -/

/-- **Mapper and planner agree on the map.** Whatever the scans and the arithmetic, the Mapper
gets through them without leaving an array and sends one update for each scan, with at most 16
obstacles. Every counter stays in `0..OBS_THRES+1`; no cell is announced twice, and the
announced cells are those with a counter above `OBS_THRES`. And a planner that started with an
empty map and has received these updates in order, and any requests between them, has exactly
these cells marked. -/
theorem maps_agree [Double R] {pipes : CArray TypedPipe} {fd : Int}
    (hwired : Mapper.Wired (Mapper.start pipes : Mapper R).toMapperPipes fd)
    (scans : List (CommRangePoseData R)) :
    ∃ (m : Mapper R) (updates : List CommMapUpdate),
      runAll (fun data => execute (Mapper.updateMap data)) scans (Mapper.start pipes) = .ok m ∧
      updates.length = scans.length ∧
      m.writes = updates.map (fun u => (fd, .mapUpdate u.wire)) ∧
      (∀ u ∈ updates, 0 ≤ u.obsCount ∧ u.obsCount ≤ 16) ∧
      (∀ x y, 0 ≤ m.obstacleMap x y ∧ m.obstacleMap x y ≤ obsThres + 1) ∧
      (updates.flatMap CommMapUpdate.pairs).Nodup ∧
      (∀ x y, (x, y) ∈ updates.flatMap CommMapUpdate.pairs
        ↔ InGrid x y ∧ obsThres < m.obstacleMap x y) ∧
      ∀ (a a' : AStar R) (wakes : List AStar.Wake), AStar.Ready a →
        (∀ x y, a.obstacleMap x y = false) →
        wakes.filterMap Prod.fst = updates.map (fun u => mapUpdateReads (wireBytes u.wire)) →
        runAll AStar.wake wakes a = .ok a' →
        ∀ x y, a'.obstacleMap x y = true ↔ InGrid x y ∧ obsThres < m.obstacleMap x y := by
  obtain ⟨m, updates, hrun, hlen, hsound⟩ := (Mapper.sound_start hwired).scans scans
  rw [List.nil_append] at hsound
  refine ⟨m, updates, hrun, hlen, hsound.writes, hsound.counts, hsound.mapping.range,
    hsound.mapping.nodup, hsound.mapping.mem, ?_⟩
  intro a a' wakes hready hempty hwakes hwake x y
  have hin : ∀ p ∈ updates.flatMap CommMapUpdate.pairs, InGrid p.1 p.2 := fun p hp =>
    ((hsound.mapping.mem p.1 p.2).mp hp).1
  rw [hready.wakes hsound.counts hin hwakes hwake x y, hempty, hsound.mapping.mem]
  simp

/-! ### A robot that stands at the origin and reads nothing but zeros -/

def restScan [Double R] : CommRangePoseData R := ⟨fun _ => 0.0, fun _ => 0.0⟩

def restMapper [Double R] : Mapper R :=
  Mapper.start ⟨3, fun i => if i = 0 then ⟨.rangePoseData, 3, 0⟩
    else if i = 1 then ⟨.mapUpdate, 0, 4⟩ else ⟨.commAck, 5, 0⟩⟩

/-- It is at its goal, so no search is needed. -/
def restPlanner [Double R] : AStar R :=
  { AStar.start ⟨4, fun i => if i = 0 then ⟨.mapUpdate, 3, 0⟩ else if i = 1 then ⟨.commAck, 0, 4⟩
      else if i = 2 then ⟨.wayReq, 5, 0⟩ else ⟨.wayRes, 0, 6⟩⟩ ⟨0, 0⟩ with goal := ⟨40, 40⟩ }

theorem gridify_origin : gridify (⟨0, 0⟩ : PointD ℝ) = ⟨40, 40⟩ := by
  have h : ((0 : ℝ) + ((8 : Int) : ℝ)) / interval = ((40 : Int) : ℝ) := by
    rw [interval_real]
    norm_num
  unfold gridify offsetX offsetY
  dsimp only
  rw [h, toInt_intCast]
  rfl

theorem gridify_restPose : gridify (⟨(restScan : CommRangePoseData ℝ).pose 0,
    (restScan : CommRangePoseData ℝ).pose 1⟩ : PointD ℝ) = ⟨40, 40⟩ := by
  have h : (⟨(restScan : CommRangePoseData ℝ).pose 0, (restScan : CommRangePoseData ℝ).pose 1⟩
      : PointD ℝ) = ⟨0, 0⟩ := by
    unfold restScan
    rw [PointD.mk.injEq]
    norm_num
  rw [h, gridify_origin]

theorem gridify_rest (i : Fin 16) :
    gridify (Mapper.obstacleOf (restScan : CommRangePoseData ℝ) i) = ⟨40, 40⟩ := by
  have h : Mapper.obstacleOf (restScan : CommRangePoseData ℝ) i = ⟨0, 0⟩ := by
    unfold Mapper.obstacleOf restScan
    dsimp only
    rw [PointD.mk.injEq]
    norm_num
  rw [h, gridify_origin]

theorem readings : List.finRange 16 = [0, 1, 2, 3, 4, 5, 6, 7, 8, 9, 10, 11, 12, 13, 14, 15] := by
  decide

/-- The integers of a message. -/
def Comm.ints : Comm R → List Int
  | .mapUpdate buffer => buffer
  | _ => []

/-- The third of the sixteen readings announces the cell `(40, 40)`. -/
theorem maps_agree_at_rest :
    ∃ m a', runAll (fun data => execute (Mapper.updateMap data)) [restScan] (restMapper (R := ℝ))
        = .ok m ∧
      runAll AStar.wake [(some (mapUpdateReads (wireBytes [40, 40, 1, 40, 40])), none)]
        (restPlanner (R := ℝ)) = .ok a' ∧
      m.writes.map (fun w => (w.1, w.2.ints)) = [(4, [40, 40, 1, 40, 40])] ∧
      ∀ x y, a'.obstacleMap x y = true ↔ InGrid x y ∧ obsThres < m.obstacleMap x y := by
  have hwired : Mapper.Wired (restMapper (R := ℝ)).toMapperPipes 4 :=
    ⟨⟨.mapUpdate, 0, 4⟩, rfl, rfl, rfl, by decide⟩
  obtain ⟨m, updates, hrun, -, hwrites, -, -, -, -, hagree⟩ := maps_agree (R := ℝ) hwired [restScan]
  have hplan := eq_ended (d := restPlanner (R := ℝ)) (r := runAll AStar.wake
    [(some (mapUpdateReads (wireBytes [40, 40, 1, 40, 40])), none)] restPlanner)
    (by decide +kernel)
  have hsent : m.writes.map (fun w => (w.1, w.2.ints)) = [(4, [40, 40, 1, 40, 40])] := by
    have hended : (ended (runAll (fun data => execute (Mapper.updateMap data)) [restScan]
        (restMapper (R := ℝ))) restMapper).writes.map (fun w => (w.1, w.2.ints))
          = [(4, [40, 40, 1, 40, 40])] := by
      simp only [runAll, Mapper.updateMap, gridify_restPose, readings, Mapper.addObstacles,
        gridify_rest]
      decide +kernel
    rw [restMapper, hrun] at hended
    exact hended
  have hwires : updates.map CommMapUpdate.wire = [[40, 40, 1, 40, 40]] := by
    have hsnd := congrArg (List.map Prod.snd) hsent
    rw [hwrites, List.map_map, List.map_map] at hsnd
    exact hsnd
  refine ⟨m, _, hrun, hplan, hsent, ?_⟩
  refine hagree restPlanner _ _ ⟨⟨⟨.mapUpdate, 3, 0⟩, rfl, rfl, by decide⟩, rfl, rfl⟩
    (fun _ _ => rfl) ?_ hplan
  have hreads := congrArg (List.map fun ints => mapUpdateReads (wireBytes ints)) hwires
  rw [List.map_map] at hreads
  exact hreads.symm

end Pint
