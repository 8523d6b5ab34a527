import Pint.Lib.ShortestPath
import Pint.Proof.Exact
import Pint.Proof.GoalPath
import Pint.Proof.NodeQueue
import Pint.Proof.Search

/-!
# The planner finds shortest paths

The search is a best-first search with the straight-line distance as its estimate, on a map
without a border and with exact arithmetic. `Searching` is what its sets keep between two
passes: the open set is sorted by score and estimate, every node's back links are a path
whose cost is its score, and the scores are a frontier of the search.

The last of these is where the algorithm is, and it is in `Lib.ShortestPath`: every walk from the
pose leads through the frontier or stays in what is closed, and what is closed has its
final score. A consistent estimate makes the entry that is popped final (`Frontier.least_open`), and
the straight line is consistent because a legal step is no shorter than what it brings the goal
nearer (`estDistanceG_consistent`). What is shown here is that the passes of the code keep this:
`visitNeighbors` offers each neighbour in turn, and the offers are what `Frontier.close` asks
for (`Searching.frontier_next`).

The path that is answered is read from the back links, so it is a path whatever the scores are
(`Linked`), and its cost is the score of the goal.
-/

namespace Pint

open Prog ShortestPath

/-! ## Steps -/

/-- A step to one of the eight neighbours that is free. A diagonal one also needs one of the
two cells next to both ends to be free. -/
def LegalStep (m : Int → Int → Bool) (a b : PointI) : Prop :=
  a ≠ b ∧ |b.x - a.x| ≤ 1 ∧ |b.y - a.y| ≤ 1 ∧ m b.x b.y = false ∧
    (a.x ≠ b.x ∧ a.y ≠ b.y → m b.x a.y = false ∨ m a.x b.y = false)

/-- A straight step costs 1, a diagonal one the square root of 2. -/
noncomputable def stepCost (a b : PointI) : ℝ := if a.x ≠ b.x ∧ a.y ≠ b.y then √2 else 1

variable {m : Int → Int → Bool}

theorem isFree_iff {x y : Int} {o : Int × Int} (ho : o ∈ offsets) :
    isFree m x y o = true ↔ LegalStep m ⟨x, y⟩ ⟨x + o.1, y + o.2⟩ := by
  obtain ⟨hi, hi', hj, hj'⟩ := mem_offsets.mp ho
  have habs : |x + o.1 - x| ≤ 1 ∧ |y + o.2 - y| ≤ 1 := by
    constructor <;> rw [abs_le] <;> omega
  have hself : (o.2 = 0 ∧ o.1 = 0) ↔ (⟨x, y⟩ : PointI) = ⟨x + o.1, y + o.2⟩ := by
    rw [PointI.mk.injEq]
    omega
  have hcorner : o.1.natAbs + o.2.natAbs = 2 ↔ x ≠ x + o.1 ∧ y ≠ y + o.2 := by omega
  unfold isFree LegalStep
  simp only [hself, hcorner, decide_eq_true_eq, Bool.and_eq_true, Bool.decide_and,
    Bool.not_eq_true', ne_eq]
  tauto

/-- A legal step goes to a neighbour at one of the offsets. -/
theorem LegalStep.offset {a b : PointI} (h : LegalStep m a b) :
    ∃ o ∈ offsets, b = ⟨a.x + o.1, a.y + o.2⟩ := by
  obtain ⟨-, hx, hy, -, -⟩ := h
  rw [abs_le] at hx hy
  refine ⟨(b.x - a.x, b.y - a.y), mem_offsets.mpr ⟨hx.1, hx.2, hy.1, hy.2⟩, ?_⟩
  rw [add_sub_cancel, add_sub_cancel]

/-- The neighbours of `genNeighbors` are the cells a legal step away. -/
theorem mem_neighborEntries_cells {a b : PointI} :
    (∃ n ∈ (neighborEntries m a.x a.y : List (Entry ℝ)), n.cell = b) ↔ LegalStep m a b := by
  constructor
  · rintro ⟨n, hn, rfl⟩
    obtain ⟨o, ho, hfree, rfl⟩ := mem_neighborEntries.mp hn
    exact (isFree_iff ho).mp hfree
  · intro hstep
    obtain ⟨o, ho, rfl⟩ := hstep.offset
    exact ⟨neighborEntry a.x a.y o, mem_neighborEntries.mpr ⟨o, ho, (isFree_iff ho).mpr hstep, rfl⟩,
      rfl⟩

/-! ## Distances -/

/-- The straight-line distance is the one of the plane. -/
theorem estDistance_eq (a b : PointI) :
    (estDistance a.x a.y b.x b.y : ℝ) = ‖(⟨a.x, a.y⟩ - ⟨b.x, b.y⟩ : ℂ)‖ := by
  show Real.sqrt _ = _
  rw [Complex.norm_eq_sqrt_sq_add_sq]
  congr 1
  simp only [Complex.sub_re, Complex.sub_im]
  push_cast
  ring

theorem estDistance_sqrt {x1 y1 x2 y2 d : Int}
    (h : (x1 - x2) * (x1 - x2) + (y1 - y2) * (y1 - y2) = d) :
    (estDistance x1 y1 x2 y2 : ℝ) = √(d : ℝ) := by
  rw [← h]
  rfl

theorem estDistance_step {a b : PointI} (h : LegalStep m a b) :
    (estDistance b.x b.y a.x a.y : ℝ) = stepCost a b := by
  obtain ⟨hne, hx, hy, -, -⟩ := h
  rw [abs_le] at hx hy
  have hsame : ¬ (b.x = a.x ∧ b.y = a.y) := by
    rintro ⟨hbx, hby⟩
    exact hne (PointI.mk.injEq _ _ _ _ ▸ ⟨hbx.symm, hby.symm⟩)
  have hsquare : ∀ d : Int, -1 ≤ d → d ≤ 1 → d * d = if d = 0 then 0 else 1 := by
    intro d hd hd'
    obtain rfl | rfl | rfl : d = -1 ∨ d = 0 ∨ d = 1 := by omega
    all_goals rfl
  show Real.sqrt (((b.x - a.x) * (b.x - a.x) + (b.y - a.y) * (b.y - a.y) : Int) : ℝ) = _
  rw [hsquare _ hx.1 hx.2, hsquare _ hy.1 hy.2]
  unfold stepCost
  by_cases hdx : b.x = a.x
  · have hdy : b.y ≠ a.y := fun hdy => hsame ⟨hdx, hdy⟩
    simp [hdx, sub_eq_zero, hdy]
  · by_cases hdy : b.y = a.y
    · simp [hdy, sub_eq_zero, hdx]
    · simp [sub_eq_zero, hdx, hdy, Ne.symm hdx, Ne.symm hdy]

/-- The estimate is consistent. -/
theorem estDistanceG_consistent (goal : PointI) :
    Consistent (LegalStep m) stepCost (fun c => (estDistanceG goal c.x c.y : ℝ)) := by
  intro a b hstep
  rw [← estDistance_step hstep]
  show (estDistance a.x a.y goal.x goal.y : ℝ) ≤
    estDistance b.x b.y a.x a.y + estDistance b.x b.y goal.x goal.y
  rw [estDistance_eq a goal, estDistance_eq b goal, estDistance_eq b a,
    norm_sub_rev (⟨b.x, b.y⟩ : ℂ) ⟨a.x, a.y⟩]
  exact norm_sub_le_norm_sub_add_norm_sub _ _ _

/-! ## The neighbours in order -/

theorem insertEntry_last {e : Entry ℝ} {es : List (Entry ℝ)}
    (h : ∀ d ∈ es, ¬ e.sortVal < d.sortVal) : insertEntry e es = es ++ [e] := by
  unfold insertEntry
  induction es with
  | nil => rfl
  | cons d es ih =>
    rw [List.orderedInsert_cons, if_neg (h d List.mem_cons_self),
      ih fun b hb => h b (List.mem_cons_of_mem d hb)]
    rfl

/-- The neighbours are in the order of the two loops: they have all the same value. -/
theorem neighborEntries_eq (x y : Int) : (neighborEntries m x y : List (Entry ℝ))
    = (offsets.filter (isFree m x y)).map (neighborEntry x y) := by
  have hfold : ∀ (os : List (Int × Int)) (es : List (Entry ℝ)), (∀ d ∈ es, d.sortVal = 0.0) →
      os.foldl (fun es o => insertEntry (neighborEntry x y o) es) es
        = es ++ os.map (neighborEntry x y) := by
    intro os
    induction os with
    | nil => intro es _; simp
    | cons o os ih =>
      intro es hes
      have hlast : insertEntry (neighborEntry x y o) es = es ++ [neighborEntry x y o] :=
        insertEntry_last fun d hd => by
          rw [hes d hd]
          exact lt_irrefl _
      rw [List.foldl_cons, hlast, ih _ fun d hd => ?_, List.append_assoc]
      · rfl
      · rcases List.mem_append.mp hd with hd | hd
        · exact hes d hd
        · rw [List.mem_singleton.mp hd]
          rfl
  exact hfold _ [] fun d hd => absurd hd List.not_mem_nil

/-! ## The neighbours, one by one -/

section

variable {goal : PointI} {closed es : List (Entry ℝ)} {current : Node ℝ}

theorem Distinct.find? {R : Type} {es : List (Entry R)} (h : Distinct es) {e : Entry R}
    (he : e ∈ es) : es.find? (fun d => d.cell = e.cell) = some e := by
  induction es with
  | nil => exact absurd he List.not_mem_nil
  | cons d es ih =>
    obtain ⟨hd, hes⟩ := List.nodup_cons.mp h
    rcases List.mem_cons.mp he with rfl | he
    · simp
    · have hne : d.cell ≠ e.cell := fun heq => hd (List.mem_map.mpr ⟨e, he, heq.symm⟩)
      simpa [hne] using ih hes he

theorem offer_new {n : Node ℝ} (hclosed : ¬ Has closed n.cell) (hopen : ¬ Has es n.cell) :
    offer goal closed current es n = insertEntry (steppedTo goal current n) es := by
  have hnot : ∀ e ∈ es, ¬ decide (e.cell = n.cell) = true := fun e he hcell =>
    hopen ⟨e, he, of_decide_eq_true hcell⟩
  have himp : Improves current n es := by
    intro e he
    rw [List.find?_eq_none.mpr hnot] at he
    cases he
  rw [offer, if_pos ⟨hclosed, himp⟩, List.eraseP_of_forall_not hnot]

/-- An entry stays, or a better one for its cell takes its place. -/
theorem offer_keeps {n : Node ℝ} (hes : Distinct es) {e : Entry ℝ} (he : e ∈ es) :
    ∃ d ∈ offer goal closed current es n, d.cell = e.cell ∧ d.node.gScore ≤ e.node.gScore := by
  unfold offer
  split
  · rename_i hput
    by_cases hcell : e.cell = n.cell
    · refine ⟨steppedTo goal current n, mem_insertEntry.mpr (Or.inl rfl), hcell.symm, ?_⟩
      have hfind := hes.find? he
      rw [hcell] at hfind
      exact le_of_lt (hput.2 e hfind)
    · refine ⟨e, mem_insertEntry.mpr (Or.inr ?_), rfl, le_rfl⟩
      exact (List.mem_eraseP_of_neg (by simpa using hcell)).mpr he
  · exact ⟨e, he, rfl, le_rfl⟩

/-- Afterwards there is an entry for the neighbour, no worse than the way through `current`. -/
theorem offer_has {n : Node ℝ} (hnew : ¬ Has closed n.cell) :
    ∃ d ∈ offer goal closed current es n,
      d.cell = n.cell ∧ d.node.gScore ≤ tentGScore current n := by
  unfold offer
  split
  · exact ⟨steppedTo goal current n, mem_insertEntry.mpr (Or.inl rfl), rfl, le_rfl⟩
  · rename_i hput
    have himp : ¬ Improves current n es := fun himp => hput ⟨hnew, himp⟩
    unfold Improves at himp
    push Not at himp
    obtain ⟨e, hfind, hle⟩ := himp
    exact ⟨e, List.mem_of_find?_eq_some hfind, by simpa using List.find?_some hfind, hle⟩

theorem offers_keeps (ns : List (Entry ℝ)) (hes : Distinct es) {e : Entry ℝ} (he : e ∈ es) :
    ∃ d ∈ offers goal closed current ns es,
      d.cell = e.cell ∧ d.node.gScore ≤ e.node.gScore := by
  induction ns generalizing es e with
  | nil => exact ⟨e, he, rfl, le_rfl⟩
  | cons n ns ih =>
    obtain ⟨d, hd, hcell, hle⟩ := offer_keeps (n := n.node) hes he
    obtain ⟨b, hb, hcell', hle'⟩ := ih hes.offer hd
    exact ⟨b, hb, hcell'.trans hcell, hle'.trans hle⟩

theorem offers_has {ns : List (Entry ℝ)} (hes : Distinct es) {n : Entry ℝ} (hn : n ∈ ns)
    (hnew : ¬ Has closed n.cell) :
    ∃ d ∈ offers goal closed current ns es,
      d.cell = n.cell ∧ d.node.gScore ≤ tentGScore current n.node := by
  induction ns generalizing es with
  | nil => exact absurd hn List.not_mem_nil
  | cons b ns ih =>
    rcases List.mem_cons.mp hn with rfl | hn
    · have hoffer : ∃ d ∈ offer goal closed current es n.node,
          d.cell = n.cell ∧ d.node.gScore ≤ tentGScore current n.node := offer_has hnew
      obtain ⟨d, hd, hcell, hle⟩ := hoffer
      obtain ⟨d', hd', hcell', hle'⟩ := offers_keeps ns hes.offer hd
      exact ⟨d', hd', hcell'.trans hcell, hle'.trans hle⟩
    · exact ih hes.offer hn

/-- The open set is sorted. -/
def Sorted (es : List (Entry ℝ)) : Prop := es.Pairwise fun a b => a.sortVal ≤ b.sortVal

theorem sorted_iff : Sorted es ↔ StableQueue.InOrder Entry.Before es := by
  unfold Sorted StableQueue.InOrder Entry.Before
  simp only [not_lt]

theorem Sorted.insertEntry {e : Entry ℝ} (h : Sorted es) : Sorted (insertEntry e es) :=
  sorted_iff.mpr ((sorted_iff.mp h).orderedInsert e)

theorem Sorted.offer {n : Node ℝ} (h : Sorted es) : Sorted (offer goal closed current es n) := by
  unfold Pint.offer
  split
  · exact Sorted.insertEntry (List.Pairwise.sublist List.eraseP_sublist h)
  · exact h

theorem Sorted.offers {ns : List (Entry ℝ)} (h : Sorted es) :
    Sorted (offers goal closed current ns es) := by
  induction ns generalizing es with
  | nil => exact h
  | cons n ns ih => exact ih h.offer

end

/-! ## What a pass keeps -/

/-- The back links of a node are a path from `pose`, and its score is the path's cost. -/
inductive Linked (m : Int → Int → Bool) (pose : PointI) : Node ℝ → Prop where
  | start : Linked m pose ⟨pose.x, pose.y, 0, none⟩
  | step {n : Node ℝ} {c : PointI} (hn : Linked m pose n) (hstep : LegalStep m n.cell c) :
      Linked m pose ⟨c.x, c.y, n.gScore + stepCost n.cell c, some n⟩

/-- The scores of a set. -/
def scores (es : List (Entry ℝ)) (c : PointI) (k : ℝ) : Prop :=
  ∃ e ∈ es, e.cell = c ∧ e.node.gScore = k

/-- What the sets of the search keep between two passes. -/
structure Searching (m : Int → Int → Bool) (pose goal : PointI) (s : Search ℝ)
    (opened closed : List (Entry ℝ)) : Prop where
  holds : s.Holds opened closed
  separate : Separate opened closed
  linked : ∀ e ∈ opened, Linked m pose e.node
  sorted : Sorted opened
  sortVal : ∀ e ∈ opened, e.sortVal = e.node.gScore + estDistanceG goal e.cell.x e.cell.y
  goal_new : ¬ Has closed goal
  frontier : Frontier (LegalStep m) stepCost pose (scores opened) (scores closed)

section

variable {pose goal : PointI} {s : Search ℝ} {e : Entry ℝ} {opened closed : List (Entry ℝ)}

theorem tentGScore_step {n : Entry ℝ} (hstep : LegalStep m e.cell n.cell) :
    tentGScore e.node n.node = e.node.gScore + stepCost e.cell n.cell := by
  unfold tentGScore
  rw [← estDistance_step hstep]
  rfl

theorem steppedTo_linked {n : Entry ℝ} (he : Linked m pose e.node)
    (hstep : LegalStep m e.cell n.cell) : Linked m pose (steppedTo goal e.node n.node).node := by
  have hlinked := Linked.step he hstep
  rw [show e.node.cell = e.cell from rfl, ← tentGScore_step hstep] at hlinked
  exact hlinked

/-- What is opened in a pass was open, or is a legal step away from what is closed. -/
theorem mem_opening {d : Entry ℝ} (hd : d ∈ opening m goal e opened closed) :
    d ∈ opened ∨ ∃ n : Entry ℝ, LegalStep m e.cell n.cell ∧ d = steppedTo goal e.node n.node := by
  rcases mem_offers hd with hd | ⟨n, hn, rfl, -⟩
  · exact Or.inl hd
  · exact Or.inr ⟨n, mem_neighborEntries_cells.mp ⟨n, hn, rfl⟩, rfl⟩

theorem mem_closing {d : Entry ℝ} : d ∈ closing goal e closed ↔
    d = ⟨e.node, estDistanceG goal e.node.x e.node.y⟩ ∨ d ∈ closed :=
  mem_insertEntry

theorem scores_closing {c : PointI} {k : ℝ} :
    scores (closing goal e closed) c k ↔ c = e.cell ∧ k = e.node.gScore ∨ scores closed c k := by
  unfold scores
  constructor
  · rintro ⟨d, hd, rfl, rfl⟩
    rcases mem_closing.mp hd with rfl | hd
    · exact Or.inl ⟨rfl, rfl⟩
    · exact Or.inr ⟨d, hd, rfl, rfl⟩
  · rintro (⟨rfl, rfl⟩ | ⟨d, hd, rfl, rfl⟩)
    · exact ⟨_, mem_closing.mpr (Or.inl rfl), rfl, rfl⟩
    · exact ⟨d, mem_closing.mpr (Or.inr hd), rfl, rfl⟩

/-- The entry that is popped has the least score and estimate. -/
theorem Searching.least (h : Searching m pose goal s (e :: opened) closed) :
    ∀ c k, scores (e :: opened) c k →
      e.node.gScore + estDistanceG goal e.cell.x e.cell.y ≤ k + estDistanceG goal c.x c.y := by
  rintro c k ⟨d, hd, rfl, rfl⟩
  rw [← h.sortVal e List.mem_cons_self, ← h.sortVal d hd]
  rcases List.mem_cons.mp hd with rfl | hd
  · exact le_rfl
  · exact (List.pairwise_cons.mp h.sorted).1 d hd

theorem Searching.popped_new (h : Searching m pose goal s (e :: opened) closed) :
    ∀ k, ¬ scores closed e.cell k := by
  rintro k ⟨d, hd, hcell, -⟩
  exact h.separate.apart e List.mem_cons_self ⟨d, hd, hcell⟩

/-- The scores after a pass are a frontier again. -/
theorem Searching.frontier_next (h : Searching m pose goal s (e :: opened) closed) :
    Frontier (LegalStep m) stepCost pose (scores (opening m goal e opened closed))
      (scores (closing goal e closed)) := by
  have hopened : Distinct opened := (List.nodup_cons.mp h.separate.distinctOpened).2
  refine h.frontier.close (estDistanceG_consistent goal) h.popped_new h.least
    (fun c k => scores_closing) ?_ ?_
  · rintro c k ⟨d, hd, rfl, rfl⟩
    rcases List.mem_cons.mp hd with rfl | hd
    · exact Or.inl rfl
    · obtain ⟨b, hb, hcell, hle⟩ := offers_keeps _ hopened hd
      exact Or.inr ⟨b.node.gScore, hle, b, hb, hcell, rfl⟩
  · intro c hstep
    obtain ⟨n, hn, rfl⟩ := mem_neighborEntries_cells.mpr hstep
    by_cases hclosed : Has (closing goal e closed) n.cell
    · obtain ⟨d, hd, hcell⟩ := hclosed
      exact Or.inl ⟨d.node.gScore, d, hd, hcell, rfl⟩
    · obtain ⟨d, hd, hcell, hle⟩ := offers_has hopened hn hclosed
      rw [tentGScore_step hstep] at hle
      exact Or.inr ⟨d.node.gScore, hle, d, hd, hcell, rfl⟩

theorem Searching.next {s' : Search ℝ} (h : Searching m pose goal s (e :: opened) closed)
    (hgoal : e.cell ≠ goal)
    (hholds : s'.Holds (opening m goal e opened closed) (closing goal e closed)) :
    Searching m pose goal s' (opening m goal e opened closed) (closing goal e closed) where
  holds := hholds
  separate := h.separate.next
  linked := by
    intro d hd
    rcases mem_opening hd with hd | ⟨n, hstep, rfl⟩
    · exact h.linked d (List.mem_cons_of_mem e hd)
    · exact steppedTo_linked (h.linked e List.mem_cons_self) hstep
  sorted := Sorted.offers (List.pairwise_cons.mp h.sorted).2
  sortVal := by
    intro d hd
    rcases mem_opening hd with hd | ⟨n, -, rfl⟩
    · exact h.sortVal d (List.mem_cons_of_mem e hd)
    · rfl
  goal_new := by
    rw [has_closing]
    rintro (hcell | hhas)
    · exact hgoal hcell
    · exact h.goal_new hhas
  frontier := h.frontier_next

end

/-! ## The loop -/

/-- The obstacle map as a predicate on all cells. -/
def everywhere (m : Int → Int → Bool) : Obstacles := fun x y => .ok (m x y)

section

variable {pose goal : PointI}

/-- What the search answers. -/
def Answers (m : Int → Int → Bool) (pose goal : PointI) : Option (Node ℝ) → Prop
  | some n => n.cell = goal ∧ Linked m pose n ∧
      ∀ c, Walk (LegalStep m) stepCost pose goal c → n.gScore ≤ c
  | none => ∀ c, ¬ Walk (LegalStep m) stepCost pose goal c

theorem Searching.failed {s : Search ℝ} {closed : List (Entry ℝ)}
    (h : Searching m pose goal s [] closed) : Answers m pose goal none := by
  intro c hwalk
  have hempty : ∀ v k, ¬ scores ([] : List (Entry ℝ)) v k := by
    rintro v k ⟨e, he, -⟩
    exact List.not_mem_nil he
  obtain ⟨k, e, he, hcell, -⟩ := h.frontier.exhausted (estDistanceG_consistent goal) hempty hwalk
  exact h.goal_new ⟨e, he, hcell⟩

theorem Searching.solved {s : Search ℝ} {e : Entry ℝ} {opened closed : List (Entry ℝ)}
    (h : Searching m pose goal s (e :: opened) closed) (hgoal : e.cell = goal) :
    Answers m pose goal (some e.node) := by
  refine ⟨hgoal, h.linked e List.mem_cons_self, ?_⟩
  intro c hwalk
  rw [← hgoal] at hwalk
  exact h.frontier.least_open (estDistanceG_consistent goal) h.popped_new h.least hwalk

theorem searchLoop_answers : ∀ (n : Nat) {s : Search ℝ} {opened closed : List (Entry ℝ)}
    {outcome : Option (Node ℝ)}, Searching m pose goal s opened closed →
      searchLoop (everywhere m) goal n s = .ok (some outcome) → Answers m pose goal outcome := by
  intro n
  induction n with
  | zero => exact fun _ hloop => nomatch hloop
  | succ n ih =>
    intro s opened closed outcome h hloop
    cases opened with
    | nil =>
      have hturn : searchTurn (everywhere m) goal s = .ok .failed := searchTurn_failed h.holds
      simp only [searchLoop, hturn, Bind.bind, Except.bind, Pure.pure, Except.pure] at hloop
      cases hloop
      exact h.failed
    | cons e opened =>
      by_cases hgoal : e.cell = goal
      · have hturn : searchTurn (everywhere m) goal s = .ok (.solved e.node) :=
          searchTurn_solved h.holds hgoal
        simp only [searchLoop, hturn, Bind.bind, Except.bind, Pure.pure, Except.pure] at hloop
        cases hloop
        exact h.solved hgoal
      · have hreads : ReadsAround (everywhere m) m e.node.x e.node.y := fun _ _ _ _ _ _ => rfl
        obtain ⟨hbad, hgood⟩ := searchTurn_next h.holds hgoal hreads
        -- A pass that goes wrong answers nothing.
        by_cases hstrands : StrandsOn m goal e opened closed
        · simp [searchLoop, hbad hstrands, Bind.bind, Except.bind] at hloop
        · obtain ⟨s', hturn, hholds⟩ := hgood hstrands
          simp only [searchLoop, hturn, Bind.bind, Except.bind] at hloop
          exact ih (h.next hgoal hholds) hloop

end

theorem real_zero : (0.0 : ℝ) = 0 := by norm_num

/-- The search starts in order. -/
theorem searchStart_searching {pose goal : PointI} {s : Search ℝ}
    (hs : searchStart pose goal = .ok s) :
    ∃ opened closed, Searching m pose goal s opened closed := by
  obtain ⟨s', hs', hholds⟩ := searchStart_eq (R := ℝ) pose goal
  obtain rfl := Except.ok.inj (hs'.symm.trans hs)
  have hnone : ∀ c : PointI, ¬ Has ([] : List (Entry ℝ)) c := by
    rintro c ⟨d, hd, -⟩
    exact List.not_mem_nil hd
  have hzero : (newNode pose.x pose.y 0.0 : Node ℝ) = ⟨pose.x, pose.y, 0, none⟩ := by
    rw [newNode, real_zero]
  rw [hzero] at hholds
  refine ⟨_, _, hholds, ⟨List.nodup_singleton _, List.nodup_nil, fun e _ => hnone e.cell⟩, ?_,
    List.pairwise_singleton _ _, ?_, hnone goal, ?_⟩
  · intro e he
    rw [List.mem_singleton.mp he]
    exact .start
  · intro e he
    rw [List.mem_singleton.mp he]
    exact (zero_add _).symm
  · apply Frontier.initial
    · exact ⟨_, List.mem_singleton.mpr rfl, rfl, rfl⟩
    · rintro c k ⟨d, hd, -⟩
      exact List.not_mem_nil hd

/-! ## The path -/

/-- Following the back links from a node puts their path in front of a list. -/
theorem Linked.extractPath {pose : PointI} {n : Node ℝ} (h : Linked m pose n) (l : LList ℝ) :
    ∃ path, pathCells (extractPath l n) = path ++ pathCells l ∧
      IsPath (LegalStep m) pose n.cell path ∧ cost stepCost path = n.gScore := by
  induction h generalizing l with
  | start => exact ⟨[pose], rfl, .single pose, rfl⟩
  | @step n c hn hstep ih =>
    have hnode : Pint.extractPath l ⟨c.x, c.y, n.gScore + stepCost n.cell c, some n⟩ =
        Pint.extractPath (push l ⟨c.x, c.y, n.gScore + stepCost n.cell c, some n⟩) n := by
      rw [Pint.extractPath]
    obtain ⟨path, hcells, hpath, hcost⟩ :=
      ih (push l ⟨c.x, c.y, n.gScore + stepCost n.cell c, some n⟩)
    refine ⟨path ++ [c], ?_, hpath.snoc hstep, ?_⟩
    · rw [hnode, hcells, List.append_assoc]
      rfl
    · rw [cost_snoc hpath.last, hcost]

/-- `command` before it sends anything: the new path or none, if the loop ends within `n`
passes. -/
def findPath {R : Type} [Double R] (obs : Obstacles) (pose goal : PointI) (n : Nat)
    (goalPath : LList R) : Except Fault (Option (Option (LList R))) := do
  match ← searchLoop obs goal n (← searchStart pose goal) with
  | none => return none
  | some none => return some none
  | some (some goalNode) => return some (some (extractPath (← eraseList goalPath) goalNode))

theorem AStar.command_findPath {R : Type} [Double R] :
    (AStar.command : AStar.M R Unit) = (do
      let s ← get
      match ← (findPath s.obstacleMap.get s.pose s.goal AStar.searchBound s.goalPath :
        Except Fault _) with
      | none => throw .hung
      | some none => pure ()
      | some (some goalPath) =>
        set { s with goalPath }
        if nodeEqaulsPtr (peek goalPath 0) s.currentGoal
            && nodeEqaulsPtr (peek goalPath 1) s.nCurrentGoal then
          pure ()
        else AStar.sendWaypoints) := by
  unfold AStar.command findPath
  refine bind_congr fun s => ?_
  rw [liftM_bind, bind_assoc]
  refine bind_congr fun search => ?_
  rw [liftM_bind, bind_assoc]
  refine bind_congr fun found => ?_
  match found with
  | none => simp
  | some none => simp
  | some (some goalNode) =>
    dsimp only
    rw [liftM_bind, bind_assoc]
    refine bind_congr fun path => ?_
    simp

/-- **The planner is correct.** In every state that a planner gets into, for every map, pose
and goal: if the search loop ends with a solution, the new path is a shortest path of legal
steps from the pose to the goal, and if it ends without one there is no path. -/
theorem planner_correct {pipes : CArray TypedPipe} {pose₀ : PointI} {wakes : List AStar.Wake}
    {a : AStar ℝ} (hrun : runAll AStar.wake wakes (AStar.start pipes pose₀) = .ok a)
    (m : Int → Int → Bool) (pose goal : PointI) (n : Nat) {outcome : Option (LList ℝ)}
    (hfind : findPath (everywhere m) pose goal n a.goalPath = .ok (some outcome)) :
    match outcome with
    | some path => IsShortest (LegalStep m) stepCost pose goal (pathCells path)
    | none => ∀ path, ¬ IsPath (LegalStep m) pose goal path := by
  obtain ⟨s, hs, -⟩ := searchStart_eq (R := ℝ) pose goal
  obtain ⟨opened, closed, hsearching⟩ := searchStart_searching (m := m) hs
  -- The old path can be erased in every state that a run reaches.
  have herase := (AStar.hasPath_reached hrun).eraseList
  simp only [findPath, hs, Bind.bind, Except.bind] at hfind
  cases hloop : searchLoop (everywhere m) goal n s with
  | error fault =>
    rw [hloop] at hfind
    cases hfind
  | ok found =>
    rw [hloop] at hfind
    match found with
    | none => cases hfind
    -- The open set ran empty: a path would be a walk, and every cell of one is closed by now.
    | some none =>
      cases hfind
      intro path hpath
      exact searchLoop_answers n hsearching hloop _ hpath.walk
    | some (some g) =>
      simp only [herase] at hfind
      cases hfind
      obtain ⟨hcell, hlinked, hleast⟩ := searchLoop_answers n hsearching hloop
      obtain ⟨path, hcells, hpath, hcost⟩ := hlinked.extractPath newList
      have hnil : pathCells (newList : LList ℝ) = [] := rfl
      rw [hnil, List.append_nil] at hcells
      rw [hcell] at hpath
      dsimp only
      rw [hcells]
      refine ⟨hpath, ?_⟩
      intro other hother
      rw [hcost]
      exact hleast _ hother.walk

/-! ### Around an obstacle

The way from `(0, 0)` to `(2, 0)` is blocked at `(1, 0)`, and leads over the three cells above. -/

namespace Wall

def wall (x y : Int) : Bool := !(y = 0 && (x = 0 || x = 2) || y = 1 && 0 ≤ x && x ≤ 2)

/-- The pose. -/
noncomputable def before : Entry ℝ := ⟨newNode 0 0 0.0, estDistanceG ⟨2, 0⟩ 0 0⟩

/-- Straight up from the pose. -/
noncomputable def beside : Entry ℝ := steppedTo ⟨2, 0⟩ before.node (newNode 0 1 0.0)

/-- Diagonally up from it, and on top of the obstacle. -/
noncomputable def above : Entry ℝ := steppedTo ⟨2, 0⟩ before.node (newNode 1 1 0.0)

/-- Diagonally down to the goal. -/
noncomputable def behind : Entry ℝ := steppedTo ⟨2, 0⟩ above.node (newNode 2 0 0.0)

/-- Straight on from the top. -/
noncomputable def beyond : Entry ℝ := steppedTo ⟨2, 0⟩ above.node (newNode 2 1 0.0)

theorem beside_vals : beside.node.gScore = 1 ∧ beside.sortVal = 1 + √5 := by
  have hg : beside.node.gScore = 1 := by
    show (0.0 : ℝ) + estDistance 0 1 0 0 = 1
    rw [estDistance_sqrt (d := 1) rfl]
    norm_num
  refine ⟨hg, ?_⟩
  show beside.node.gScore + estDistance 0 1 2 0 = 1 + √5
  rw [hg, estDistance_sqrt (d := 5) rfl]
  norm_num

theorem above_vals : above.node.gScore = √2 ∧ above.sortVal = √2 + √2 := by
  have hg : above.node.gScore = √2 := by
    show (0.0 : ℝ) + estDistance 1 1 0 0 = √2
    rw [estDistance_sqrt (d := 2) rfl]
    norm_num
  refine ⟨hg, ?_⟩
  show above.node.gScore + estDistance 1 1 2 0 = √2 + √2
  rw [hg, estDistance_sqrt (d := 2) rfl]
  norm_num

theorem behind_sortVal : behind.sortVal = √2 + √2 := by
  show above.node.gScore + estDistance 2 0 1 1 + estDistance 2 0 2 0 = √2 + √2
  rw [above_vals.1, estDistance_sqrt (d := 2) rfl, estDistance_sqrt (d := 0) rfl]
  norm_num

theorem beyond_sortVal : beyond.sortVal = √2 + 1 + 1 := by
  show above.node.gScore + estDistance 2 1 1 1 + estDistance 2 1 2 0 = √2 + 1 + 1
  rw [above_vals.1, estDistance_sqrt (d := 1) rfl, estDistance_sqrt (d := 1) rfl]
  norm_num

/-- The diagonal way is the shorter one. -/
theorem diagonal_lt : √2 + √2 < 1 + √5 := by
  have h2 : √2 < 1.42 := by rw [Real.sqrt_lt' (by norm_num)]; norm_num
  have h5 : 2.2 < √5 := by rw [Real.lt_sqrt (by norm_num)]; norm_num
  linarith

theorem neighbors_before : (neighborEntries wall 0 0 : List (Entry ℝ))
    = [neighborEntry 0 0 (0, 1), neighborEntry 0 0 (1, 1)] := by
  rw [neighborEntries_eq]
  rfl

theorem neighbors_above : (neighborEntries wall 1 1 : List (Entry ℝ))
    = [neighborEntry 1 1 (-1, -1), neighborEntry 1 1 (-1, 0), neighborEntry 1 1 (1, -1),
      neighborEntry 1 1 (1, 0)] := by
  rw [neighborEntries_eq]
  rfl

theorem opening_before : opening wall ⟨2, 0⟩ before [] [] = [above, beside] := by
  have hbeside : offer ⟨2, 0⟩ (closing ⟨2, 0⟩ before []) before.node []
      (neighborEntry 0 0 (0, 1)).node = [beside] := by
    rw [offer_new (by simp [has_closing]; decide) (by decide)]
    rfl
  have habove : offer ⟨2, 0⟩ (closing ⟨2, 0⟩ before []) before.node [beside]
      (neighborEntry 0 0 (1, 1)).node = [above, beside] := by
    have hfirst : above.sortVal < beside.sortVal := by
      rw [above_vals.2, beside_vals.2]
      exact diagonal_lt
    rw [offer_new (by decide) (by decide)]
    exact (List.orderedInsert_cons ..).trans (if_pos hfirst)
  show offers _ _ _ (neighborEntries wall 0 0) [] = _
  rw [neighbors_before, offers, List.foldl_cons, List.foldl_cons, hbeside, habove]
  rfl

theorem closed_iff {c : PointI} : Has (closing ⟨2, 0⟩ above (closing ⟨2, 0⟩ before [])) c ↔
    ⟨1, 1⟩ = c ∨ ⟨0, 0⟩ = c := by
  have hnone : ¬ Has ([] : List (Entry ℝ)) c := by simp [Has]
  rw [has_closing, has_closing, or_iff_left hnone]
  rfl

/-- The way to the cell beside the pose is longer now. -/
theorem not_improved : ¬ tentGScore above.node (newNode 0 1 0.0) < beside.node.gScore := by
  show ¬ above.node.gScore + estDistance 0 1 1 1 < beside.node.gScore
  rw [above_vals.1, beside_vals.1, estDistance_sqrt (d := 1) rfl]
  have := Real.sqrt_nonneg 2
  norm_num

theorem opening_above : opening wall ⟨2, 0⟩ above [beside] (closing ⟨2, 0⟩ before [])
    = [behind, beside, beyond] := by
  have hbefore : offer ⟨2, 0⟩ (closing ⟨2, 0⟩ above (closing ⟨2, 0⟩ before [])) above.node
      [beside] (neighborEntry 1 1 (-1, -1)).node = [beside] :=
    if_neg fun h => h.1 (closed_iff.mpr (Or.inr rfl))
  have hbeside : offer ⟨2, 0⟩ (closing ⟨2, 0⟩ above (closing ⟨2, 0⟩ before [])) above.node
      [beside] (neighborEntry 1 1 (-1, 0)).node = [beside] :=
    if_neg fun h => not_improved (h.2 beside rfl)
  have hbehind : offer ⟨2, 0⟩ (closing ⟨2, 0⟩ above (closing ⟨2, 0⟩ before [])) above.node
      [beside] (neighborEntry 1 1 (1, -1)).node = [behind, beside] := by
    have hfirst : behind.sortVal < beside.sortVal := by
      rw [behind_sortVal, beside_vals.2]
      exact diagonal_lt
    rw [offer_new (by rw [closed_iff]; decide) (by decide)]
    exact (List.orderedInsert_cons ..).trans (if_pos hfirst)
  have hbeyond : offer ⟨2, 0⟩ (closing ⟨2, 0⟩ above (closing ⟨2, 0⟩ before [])) above.node
      [behind, beside] (neighborEntry 1 1 (1, 0)).node = [behind, beside, beyond] := by
    rw [offer_new (by rw [closed_iff]; decide) (by decide)]
    apply insertEntry_last (e := beyond)
    have h2 : √2 < 1.42 := by rw [Real.sqrt_lt' (by norm_num)]; norm_num
    have h2' : 1.41 < √2 := by rw [Real.lt_sqrt (by norm_num)]; norm_num
    have h5 : √5 < 2.24 := by rw [Real.sqrt_lt' (by norm_num)]; norm_num
    simp only [List.mem_cons, List.not_mem_nil, or_false, forall_eq_or_imp, forall_eq]
    rw [beyond_sortVal, behind_sortVal, beside_vals.2]
    constructor <;> linarith
  show offers _ _ _ (neighborEntries wall 1 1) [beside] = _
  rw [neighbors_above, offers, List.foldl_cons, List.foldl_cons, List.foldl_cons, List.foldl_cons,
    hbefore, hbeside, hbehind, hbeyond]
  rfl

/-- The search pops the pose, the cell on top of the obstacle, and the goal. -/
theorem searchLoop_solved : ∃ s, searchStart ⟨0, 0⟩ ⟨2, 0⟩ = .ok s ∧
    searchLoop (everywhere wall) ⟨2, 0⟩ 3 s = .ok (some (some behind.node)) := by
  obtain ⟨s, hs, hholds⟩ := searchStart_eq (R := ℝ) ⟨0, 0⟩ ⟨2, 0⟩
  have hreads : ∀ x y, ReadsAround (everywhere wall) wall x y := fun x y i j _ _ _ _ => rfl
  have hgo : ¬ StrandsOn wall ⟨2, 0⟩ before [] [] :=
    Clear.not_strands fun e he => nomatch he
  obtain ⟨s₁, hfirst, hholds₁⟩ := (searchTurn_next (e := before) hholds
    (by decide : before.cell ≠ ⟨2, 0⟩) (hreads _ _)).2 hgo
  rw [opening_before] at hholds₁
  -- the cell beside the pose is the only one in the open set, and stays
  have hgo' : ¬ StrandsOn wall ⟨2, 0⟩ above [beside] (closing ⟨2, 0⟩ before []) := by
    show ¬ Strands _ _ (neighborEntries wall 1 1) _
    rw [neighbors_above, strands_cons_closed (closed_iff.mpr (Or.inr rfl)),
      strands_cons_new (by rw [closed_iff]; decide)]
    rintro ⟨-, e, he, -, hlt⟩
    rw [← List.singleton_injective he] at hlt
    exact not_improved hlt
  obtain ⟨s₂, hsecond, hholds₂⟩ := (searchTurn_next hholds₁
    (by decide : above.cell ≠ ⟨2, 0⟩) (hreads _ _)).2 hgo'
  rw [opening_above] at hholds₂
  have hthird : searchTurn (everywhere wall) ⟨2, 0⟩ s₂ = .ok (.solved behind.node) :=
    searchTurn_solved hholds₂ rfl
  refine ⟨s, hs, ?_⟩
  simp [searchLoop, hfirst, hsecond, hthird, Bind.bind, Except.bind, Pure.pure, Except.pure]

end Wall

/-- The way around the obstacle, from a planner that was asked for a waypoint before. -/
theorem planner_steps_aside :
    IsShortest (LegalStep Wall.wall) stepCost ⟨0, 0⟩ ⟨2, 0⟩ [⟨0, 0⟩, ⟨1, 1⟩, ⟨2, 0⟩] := by
  have hrun : runAll AStar.wake [(none, some 4)] (AStar.start (.filled 4 {}) ⟨0, 0⟩ : AStar ℝ) =
    .ok (AStar.start (.filled 4 {}) ⟨0, 0⟩) := rfl
  obtain ⟨s, hs, hloop⟩ := Wall.searchLoop_solved
  have hfind : findPath (everywhere Wall.wall) ⟨0, 0⟩ ⟨2, 0⟩ 3
      (AStar.start (.filled 4 {}) ⟨0, 0⟩ : AStar ℝ).goalPath
        = .ok (some (some (extractPath newList Wall.behind.node))) := by
    simp only [findPath, hs, Bind.bind, Except.bind, hloop]
    rfl
  exact planner_correct hrun Wall.wall ⟨0, 0⟩ ⟨2, 0⟩ 3 hfind

end Pint
