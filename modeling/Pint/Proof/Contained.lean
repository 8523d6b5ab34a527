import Pint.Proof.OnTheMap
import Pint.Proof.Planner

/-!
# When the search stays on the map

Which cells the search pops depends on the map, the pose and the goal. With exact scores it
closes cells in the order of their shortest paths and estimates, so a cell is popped before the
goal if it is ahead of the goal in this order, and it is not if the goal is ahead of it. A cell
that is level with the goal may be popped or not: that is up to the order in the queue, among
entries of one value.

`StaysOn` puts this into a condition on map, pose and goal. It has a part for each of the two
ways in which a pass goes wrong. No cell on the border is popped before the goal. And there is
no `Pocket`: two cells that shut some cells off, between which the search has to go from one to
the other, better than it did before, when it has nothing else to do.
-/

namespace Pint

open ShortestPath Relation

variable {m : Grid Bool} {pose goal : PointI}

/-! ## The condition -/

/-- The straight-line distance to the goal. -/
noncomputable def estimate (goal c : PointI) : ℝ := estDistanceG goal c.x c.y

/-- The shortest path to `c` and the estimate of `c` compare so with those of `d`. -/
def AheadOn (r : ℝ → ℝ → Prop) (m : Grid Bool) (pose goal c d : PointI) : Prop :=
  Ahead r (LegalStep m) stepCost (estimate goal) pose c d

/-- There is a way from `pose` to `c` of this cost that keeps clear of `e` and `x`. -/
def WalkAround (m : Grid Bool) (pose e x c : PointI) (k : ℝ) : Prop :=
  Walk (fun a b => LegalStep m a b ∧ b ≠ e ∧ b ≠ x) stepCost pose c k

/-- The order in which `genNeighbors` takes the cells. -/
def Earlier (c d : PointI) : Prop := c.x < d.x ∨ c.x = d.x ∧ c.y < d.y

/-- The cells that can be reached without `e` and `x` have no other way out. All of them come
before `e`, and `e` comes before the goal. From `e` there is a way to `x` that is shorter than
all ways to it from those cells, and no other new cell is looked at before `x`. So when `e` is
popped, the open set is the one entry of `x`, and the pass replaces it. -/
structure Pocket (r : ℝ → ℝ → Prop) (m : Grid Bool) (pose goal e x : PointI) : Prop where
  start : pose ≠ e ∧ pose ≠ x
  beforeGoal : AheadOn r m pose goal e goal
  step : LegalStep m e x
  within : ∀ c k, WalkAround m pose e x c k → AheadOn r m pose goal c e
  entered : ∃ p k, WalkAround m pose e x p k ∧ LegalStep m p x
  shorter : ∃ k, Walk (LegalStep m) stepCost pose e k ∧
    ∀ p j, WalkAround m pose e x p j → LegalStep m p x → k + stepCost e x < j + stepCost p x
  first : ∀ c, LegalStep m e c → Earlier c x → ∃ k, WalkAround m pose e x c k

theorem Earlier.asymm {c d : PointI} (h : Earlier c d) : ¬ Earlier d c := by
  unfold Earlier at *
  omega

/-! ## What the passes keep -/

/-- The sets of a search whose passes all went well so far. -/
structure Contained (m : Grid Bool) (pose goal : PointI) (s : Search ℝ)
    (opened closed : List (Entry ℝ)) : Prop extends Searching m pose goal s opened closed where
  grown : Grown (LegalStep m) stepCost (estimate goal) pose (scores opened) (scores closed)
  inGrid : ∀ e ∈ opened ++ closed, InGrid e.cell.x e.cell.y
  inner : ∀ e ∈ closed, Inner e.cell

section Passes

variable {s s' : Search ℝ} {e : Entry ℝ} {opened closed : List (Entry ℝ)} {c x : PointI}

theorem Contained.onMap (h : Contained m pose goal s opened closed) : s.OnMap opened closed :=
  ⟨h.holds, h.separate, h.inGrid⟩

theorem estimate_consistent (goal : PointI) :
    Consistent (LegalStep m) stepCost (estimate goal) :=
  estDistanceG_consistent goal

theorem has_iff_scores {es : List (Entry ℝ)} : Has es c ↔ ∃ k, scores es c k :=
  ⟨fun ⟨e, he, hc⟩ => ⟨_, e, he, hc, rfl⟩, fun ⟨_, e, he, hc, _⟩ => ⟨e, he, hc⟩⟩

theorem scores_head : scores (e :: opened) e.cell e.node.gScore :=
  ⟨e, List.mem_cons_self, rfl, rfl⟩

/-- What is popped was reached. -/
theorem Contained.walk (h : Contained m pose goal s (e :: opened) closed) :
    Walk (LegalStep m) stepCost pose e.cell e.node.gScore :=
  (h.grown.openWalk _ _ scores_head).mono fun _ _ hstep => hstep.2

/-- It comes before the goal. -/
theorem Contained.beforeGoal (h : Contained m pose goal s (e :: opened) closed) :
    AheadOn (· ≤ ·) m pose goal e.cell goal :=
  h.frontier.ahead_of_least (estimate_consistent goal) h.walk h.least fun j hj =>
    h.goal_new (has_iff_scores.mpr ⟨j, hj⟩)

/-- A pass that goes well. -/
theorem Contained.next (h : Contained m pose goal s (e :: opened) closed) (hgoal : e.cell ≠ goal)
    (hinner : Inner e.cell)
    (hholds : s'.Holds (opening m goal e opened closed) (closing goal e closed)) :
    Contained m pose goal s' (opening m goal e opened closed) (closing goal e closed) where
  toSearching := h.toSearching.next hgoal hholds
  grown := by
    refine h.grown.close (estimate_consistent goal) scores_head h.least
      (fun c k => scores_closing) ?_
    rintro c k ⟨d, hd, rfl, rfl⟩
    rcases mem_opening hd with hd | ⟨n, hstep, rfl⟩
    · exact Or.inl ⟨d, List.mem_cons_of_mem e hd, rfl, rfl⟩
    · exact Or.inr ⟨hstep, tentGScore_step hstep⟩
  inGrid := (h.onMap.next hinner hholds).inGrid
  inner := by
    intro d hd
    rcases mem_closing.mp hd with rfl | hd
    · exact hinner
    · exact h.inner d hd

/-! ## A pass that replaces the only entry -/

/-- What is closed can be reached through what is closed. -/
theorem Contained.apart (h : Contained m pose goal s (e :: opened) closed) {k : ℝ}
    (hx : ¬ Has closed x) (hc : scores closed c k) : WalkAround m pose e.cell x c k := by
  have hwalk := (h.grown.closedWalk c k hc).within ⟨k, hc⟩
  refine hwalk.mono fun a b hstep => ⟨hstep.1, ?_, ?_⟩
  · rintro rfl
    exact h.popped_new _ hstep.2.choose_spec
  · rintro rfl
    exact hx (has_iff_scores.mpr hstep.2)

theorem Contained.others (h : Contained m pose goal s (e :: opened) closed) {d : Entry ℝ}
    (hd : d ∈ opened) : d.cell ≠ e.cell ∧ ¬ Has closed d.cell := by
  refine ⟨fun heq => ?_, h.separate.apart d (List.mem_cons_of_mem e hd)⟩
  exact (List.nodup_cons.mp h.separate.distinctOpened).1 (List.mem_map.mpr ⟨d, hd, heq⟩)

/-- With a second open cell the first pass is over, so `pose` was closed. -/
theorem Contained.pose_closed (h : Contained m pose goal s (e :: opened) closed) {d : Entry ℝ}
    (hd : d ∈ opened) : Has closed pose := by
  obtain ⟨hde, hnew⟩ := h.others hd
  have hopen : scores (e :: opened) d.cell d.node.gScore :=
    ⟨d, List.mem_cons_of_mem e hd, rfl, rfl⟩
  rcases (h.grown.openWalk _ _ hopen).starts with hdp | hclosed
  · rcases (h.grown.openWalk _ _ scores_head).starts with hep | hclosed
    · exact absurd (hdp.trans hep.symm) hde
    · exact has_iff_scores.mpr hclosed
  · exact has_iff_scores.mpr hclosed

/-- With two open cells everything is closed that can be reached without them. -/
theorem Contained.shut {d : Entry ℝ} (h : Contained m pose goal s [e, d] closed) {k : ℝ}
    (hc : WalkAround m pose e.cell d.cell c k) : ∃ j, scores closed c j := by
  induction hc with
  | start => exact has_iff_scores.mp (h.pose_closed List.mem_cons_self)
  | step _ hstep ih =>
    obtain ⟨j, hj⟩ := ih
    rcases h.frontier.expanded _ j _ hj hstep.1 with hv | ⟨i, -, b, hb, hcell, -⟩
    · exact hv
    · simp only [List.mem_cons, List.not_mem_nil, or_false] at hb
      rcases hb with rfl | rfl
      · exact absurd hcell.symm hstep.2.1
      · exact absurd hcell.symm hstep.2.2

theorem stepCost_nonneg (a b : PointI) : 0 ≤ stepCost a b := by
  unfold stepCost
  split
  · exact Real.sqrt_nonneg 2
  · exact zero_le_one

/-! ## A pass at the way out of a pocket -/

/-- What a pocket shuts off is closed when `e` is popped. -/
theorem Pocket.shut (hp : Pocket (· < ·) m pose goal e.cell x)
    (h : Contained m pose goal s (e :: opened) closed) {k : ℝ}
    (hc : WalkAround m pose e.cell x c k) : Has closed c :=
  has_iff_scores.mpr
    (h.frontier.closed_of_ahead (estimate_consistent goal) h.walk h.least (hp.within _ _ hc))

/-- The way to `e` that the search has found is no longer than the one of the pocket. -/
theorem Pocket.shorter_at (hp : Pocket (· < ·) m pose goal e.cell x)
    (h : Contained m pose goal s (e :: opened) closed) {p : PointI} {j : ℝ}
    (hpj : WalkAround m pose e.cell x p j) (hpx : LegalStep m p x) :
    e.node.gScore + stepCost e.cell x < j + stepCost p x := by
  obtain ⟨k, hk, hshorter⟩ := hp.shorter
  have hek : e.node.gScore ≤ k :=
    h.frontier.least_open (estimate_consistent goal) h.popped_new h.least hk
  have hkj := hshorter p j hpj hpx
  linarith

/-- `x` is not closed: the way through `e` would have been shorter. -/
theorem Pocket.way_new (hp : Pocket (· < ·) m pose goal e.cell x)
    (h : Contained m pose goal s (e :: opened) closed) : ¬ Has closed x := by
  intro hhas
  obtain ⟨j, hj⟩ := has_iff_scores.mp hhas
  have hle : j ≤ e.node.gScore + stepCost e.cell x :=
    h.frontier.least x j _ hj (h.walk.step hp.step)
  rcases ((h.grown.closedWalk x j hj).within ⟨j, hj⟩).clear_or_meets stepCost_nonneg with
    hclear | ⟨p, i, hpi, hpx, hij⟩
  · rcases hclear.last_step with heq | ⟨_, _, _, hab, _⟩
    · exact hp.start.2 heq.symm
    · exact hab.2 rfl
  · have hapart : WalkAround m pose e.cell x p i := by
      refine hpi.mono fun a b hab => ⟨hab.1.1, ?_, hab.2⟩
      rintro rfl
      exact h.popped_new _ hab.1.2.choose_spec
    have hless := hp.shorter_at h hapart hpx.1
    linarith

/-- Every other open cell is `x`, and its entry is worse than the way through `e`. -/
theorem Pocket.at_x (hp : Pocket (· < ·) m pose goal e.cell x)
    (h : Contained m pose goal s (e :: opened) closed) {d : Entry ℝ} (hd : d ∈ opened) :
    d.cell = x ∧ e.node.gScore + stepCost e.cell x < d.node.gScore := by
  obtain ⟨hde, hnew⟩ := h.others hd
  rcases (h.grown.openWalk _ _ ⟨d, List.mem_cons_of_mem e hd, rfl, rfl⟩).last_step with
    hdp | ⟨p, i, hpi, ⟨⟨j, hj⟩, hpd⟩, hscore⟩
  · exact absurd (hdp ▸ hp.shut h .start) hnew
  · have hne : ¬ Has closed x := hp.way_new h
    have hapart : WalkAround m pose e.cell x p i := by
      refine (hpi.within ⟨j, hj⟩).mono fun a b hab => ⟨hab.1, ?_, ?_⟩
      · rintro rfl
        exact h.popped_new _ hab.2.choose_spec
      · rintro rfl
        exact hne (has_iff_scores.mpr hab.2)
    by_cases hdx : d.cell = x
    · refine ⟨hdx, ?_⟩
      rw [hscore, hdx]
      exact hp.shorter_at h hapart (hdx ▸ hpd)
    · exact absurd (hp.shut h (hapart.step ⟨hpd, hde, hdx⟩)) hnew

/-- There is such a cell: from what is shut off a step leads to `x`. -/
theorem Pocket.only (hp : Pocket (· < ·) m pose goal e.cell x)
    (h : Contained m pose goal s (e :: opened) closed) : ∃ d, opened = [d] := by
  obtain ⟨p, j, hpj, hpx⟩ := hp.entered
  obtain ⟨i, hi⟩ := has_iff_scores.mp (hp.shut h hpj)
  rcases h.frontier.expanded p i x hi hpx with hc | ⟨g, -, b, hb, hbx, -⟩
  · exact absurd (has_iff_scores.mpr hc) (hp.way_new h)
  · rcases List.mem_cons.mp hb with rfl | hb
    · exact absurd hbx hp.step.1
    · have hdistinct := (List.nodup_cons.mp h.separate.distinctOpened).2
      cases opened with
      | nil => exact absurd hb List.not_mem_nil
      | cons d rest =>
        cases rest with
        | nil => exact ⟨d, rfl⟩
        | cons d' rest =>
          have hd := (hp.at_x h (d := d) (by simp)).1
          have hd' := (hp.at_x h (d := d') (by simp)).1
          have hapart := (List.nodup_cons.mp hdistinct).1
          exact absurd (List.mem_map.mpr ⟨d', by simp, hd'.trans hd.symm⟩) hapart

end Passes

/-! ## The whole search -/

section Whole

variable {s₀ s s' : Search ℝ} {opened closed : List (Entry ℝ)}

/-- **A pass that goes on** pops a cell other than the goal, and the sets stay what they are. -/
theorem Contained.turn (h : Contained m pose goal s opened closed)
    (hturn : searchTurn m.get goal s = .ok (.next s')) :
    ∃ e rest, opened = e :: rest ∧ e.cell ≠ goal ∧
      Contained m pose goal s' (opening m goal e rest closed) (closing goal e closed) := by
  have hpass : s.Passes m goal := by
    by_contra hstop
    obtain ⟨fault, hfault⟩ := h.onMap.stops hstop
    rw [hfault] at hturn
    cases hturn
  unfold Search.Passes at hpass
  rw [h.holds.openSet.entries, h.holds.closedSet.entries] at hpass
  cases opened with
  | nil =>
    rw [searchTurn_failed h.holds] at hturn
    cases hturn
  | cons e rest =>
    by_cases hgoal : e.cell = goal
    · rw [searchTurn_solved h.holds hgoal] at hturn
      cases hturn
    · obtain ⟨hinner, hone⟩ := hpass.resolve_left hgoal
      obtain ⟨s'', hnext, hholds⟩ := (searchTurn_next h.holds hgoal hinner.readsAround).2 hone
      rw [hnext] at hturn
      cases hturn
      exact ⟨e, rest, rfl, hgoal, h.next hgoal hinner hholds⟩

end Whole

/-! ## The search of `command` -/

end Pint
