import Pint.Lib.Run
import Pint.Lib.StableQueue
import Pint.Proof.Exact
import Pint.Proof.NodeList

/-!
# A list of nodes as a queue

`addNode` and `pop` keep a list sorted, and with that it is a queue that serves the smallest
value first, and of equal values the one that was added first (`Lib.StableQueue`, which also says
what such a queue is without a list). The values are compared with `<` only, so what is needed of
them is that `<` is a strict weak order: the doubles of the code have that, as long as none of
them is a NaN.

`command` also changes a value: it removes the node and adds it again. `removeNode` of the only
node leaves the null pointer where `pop` would leave an empty list, and `addNode` follows it.
`removeNode_addNode_iff` says that this is the only way for it to go wrong, and what the list is
otherwise: the entry with its new value once, and all others as they were.
-/

namespace Pint

open Prog StableQueue

variable {R : Type} [Double R]

/-- The entry of the smaller value goes first. -/
abbrev Entry.Before : Entry R → Entry R → Prop := fun a b => a.sortVal < b.sortVal

instance [IsStrictWeakOrder R (· < ·)] :
    IsStrictWeakOrder (Entry R) (Entry.Before : Entry R → Entry R → Prop) where
  irrefl a := irrefl a.sortVal
  trans a b c := IsTrans.trans a.sortVal b.sortVal c.sortVal
  incomp_trans a b c :=
    have horder : IsStrictWeakOrder R (· < ·) := inferInstance
    horder.incomp_trans a.sortVal b.sortVal c.sortVal

instance strictWeakOrder_real : IsStrictWeakOrder ℝ (· < ·) where
  irrefl := lt_irrefl (α := ℝ)
  trans _ _ _ := lt_trans (α := ℝ)
  incomp_trans _ _ _ hab hbc :=
    ⟨not_lt.mpr (le_trans (not_lt.mp hbc.1) (not_lt.mp hab.1)),
      not_lt.mpr (le_trans (not_lt.mp hab.2) (not_lt.mp hbc.2))⟩

/-! ## `addNode` and `pop` -/

/-- A list, and what `pop` has answered so far. -/
structure QueueRun (R : Type) where
  list : LList R
  answers : List (Option (Node R)) := []

def QueueRun.step : QueueCall (Entry R) → QueueRun R → Except Fault (QueueRun R)
  | .add e, s => do return { s with list := ← addNode s.list e.node e.sortVal }
  | .pop, s => do
    let (node, list) ← pop s.list
    return { list, answers := s.answers ++ [node] }

/-- The code's list is the sorted list of those that wait. -/
structure QueueRun.Shows (s : QueueRun R) (as : List (Option (Entry R))) (q : List (Entry R)) :
    Prop where
  lists : Lists s.list (sorted Entry.Before q)
  answers : s.answers = as.map (Option.map Entry.node)

/-- What `findNode` answers: of those that wait with these coordinates the next one. -/
def FindsNext (q : List (Entry R)) (node : Node R) : Option (Node R) → Prop
  | none => ∀ e ∈ q, e.cell ≠ node.cell
  | some found =>
    ∃ e q', Served Entry.Before (q.filter fun e => e.cell = node.cell) e q' ∧ e.node = found

variable [IsStrictWeakOrder R (· < ·)]

/-- One call, in the code and in the queue. -/
theorem QueueRun.Shows.step {s : QueueRun R} {cs : List (QueueCall (Entry R))}
    {as : List (Option (Entry R))} {q : List (Entry R)} (h : s.Shows as q)
    (hruns : Runs Entry.Before cs as q) (c : QueueCall (Entry R)) :
    ∃ s' as' q', QueueRun.step c s = .ok s' ∧ Runs Entry.Before (cs ++ [c]) as' q' ∧
      s'.Shows as' q' := by
  cases c with
  | add e =>
    obtain ⟨l', hadd, hl'⟩ := h.lists.addNode e.node e.sortVal
    refine ⟨{ s with list := l' }, as, q ++ [e], ?_, hruns.add e, ?_, h.answers⟩
    · simp only [QueueRun.step, hadd]
      rfl
    · rw [sorted_snoc]
      exact hl'
  | pop =>
    cases hq : sorted Entry.Before q with
    | nil =>
      have hperm := sorted_perm (r := Entry.Before) q
      rw [hq] at hperm
      obtain rfl := hperm.nil_eq
      have hpop := h.lists.pop_nil
      refine ⟨⟨newList, s.answers ++ [none]⟩, as ++ [none], [], ?_, hruns.nobody, .newList, ?_⟩
      · simp only [QueueRun.step, hpop]
        rfl
      · rw [h.answers, List.map_append]
        rfl
    | cons e es =>
      -- The head of the sorted list is one that could be served, and what is left is the rest of
      -- it.
      obtain ⟨q', hserved, hes⟩ := sorted_served hq
      have hl := h.lists
      rw [hq] at hl
      obtain ⟨l', hpop, hl'⟩ := hl.pop_cons
      refine ⟨⟨l', s.answers ++ [some e.node]⟩, as ++ [some e], q', ?_, hruns.serve hserved,
        ?_, ?_⟩
      · simp only [QueueRun.step, hpop]
        rfl
      · rw [← hes]
        exact hl'
      · rw [h.answers, List.map_append]
        rfl

/-- **A run of the code is a run of the queue.** -/
theorem queueRun_shows (calls : List (QueueCall (Entry R))) :
    ∃ s as q, runAll QueueRun.step calls ⟨newList, []⟩ = .ok s ∧ Runs Entry.Before calls as q ∧
      s.Shows as q := by
  induction calls using List.reverseRecOn with
  | nil => exact ⟨_, [], [], rfl, .start, .newList, rfl⟩
  | append_singleton calls c ih =>
    obtain ⟨s, as, q, hrun, hruns, hshows⟩ := ih
    obtain ⟨s', as', q', hstep, hruns', hshows'⟩ := hshows.step hruns c
    refine ⟨s', as', q', ?_, hruns', hshows'⟩
    exact runAll_append.mpr ⟨s, hrun, runAll_cons.mpr ⟨s', hstep, rfl⟩⟩

theorem QueueRun.Shows.findNode {s : QueueRun R} {as : List (Option (Entry R))}
    {q : List (Entry R)} (h : s.Shows as q) (node : Node R) :
    FindsNext q node (findNode s.list node) := by
  rw [h.lists.findNode node, ← List.head?_filter, ← sorted_filter]
  cases hs : sorted Entry.Before (q.filter fun e => e.cell = node.cell) with
  | nil =>
    have hperm := sorted_perm (r := Entry.Before) (q.filter fun e => e.cell = node.cell)
    rw [hs] at hperm
    intro e he hcell
    have hnil := hperm.nil_eq
    have hmem : e ∈ q.filter fun e => e.cell = node.cell :=
      List.mem_filter.mpr ⟨he, decide_eq_true hcell⟩
    rw [← hnil] at hmem
    exact List.not_mem_nil hmem
  | cons e es =>
    obtain ⟨q', hserved, -⟩ := sorted_served hs
    exact ⟨e, q', hserved, rfl⟩

/-- **A list of nodes is a stable priority queue.** Every call of `pop` has answered what the
queue serves then, nothing is lost or served twice, and `findNode` answers with the next one of
those with these coordinates. -/
theorem node_list_is_stable_queue (calls : List (QueueCall (Entry R))) :
    ∃ s as q, runAll QueueRun.step calls ⟨newList, []⟩ = .ok s ∧
      Runs Entry.Before calls as q ∧ s.answers = as.map (Option.map Entry.node) ∧
      (added calls).Perm (as.filterMap id ++ q) ∧
      ∀ node, FindsNext q node (findNode s.list node) := by
  obtain ⟨s, as, q, hrun, hruns, hshows⟩ := queueRun_shows calls
  exact ⟨s, as, q, hrun, hruns, hshows.answers, hruns.perm, hshows.findNode⟩

/-- Two nodes with the same value, and one `pop`. -/
theorem node_list_is_stable_queue_two :
    let first : Entry ℝ := ⟨newNode 1 2 0, 5⟩
    let second : Entry ℝ := ⟨newNode 3 4 0, 5⟩
    let calls := [.add first, .add second, .pop]
    ∃ s as q, runAll QueueRun.step calls ⟨newList, []⟩ = .ok s ∧
      Runs Entry.Before calls as q ∧ s.answers = as.map (Option.map Entry.node) ∧
      (added calls).Perm (as.filterMap id ++ q) ∧
      ∀ node, FindsNext q node (findNode s.list node) :=
  node_list_is_stable_queue _

/-! ## A new value for a node -/

/-- A call on the open set; a `removeNode` comes with the `addNode` that puts the node back. -/
inductive OpenCall (R : Type) where
  | add (e : Entry R)
  | pop
  | replace (e : Entry R)

def OpenCall.step : OpenCall R → LList R → Except Fault (LList R)
  | .add e, l => addNode l e.node e.sortVal
  | .pop, l => do return (← Pint.pop l).2
  | .replace e, l => addNode (removeNode l e.node) e.node e.sortVal

/-- A sorted list of the code. -/
structure SortedList (l : LList R) : Prop where
  lists : Lists l (entries l)
  inOrder : InOrder Entry.Before (entries l)

/-- The list `l'` is the list `l` with `e` in the place of what there was for its cell. -/
structure Replaced (l : LList R) (e : Entry R) (l' : LList R) : Prop extends SortedList l' where
  once : (entries l').filter (fun d => d.cell = e.cell) = [e]
  others : (entries l').filter (fun d => d.cell ≠ e.cell)
    = (entries l).filter fun d => d.cell ≠ e.cell

section OpenCalls

variable {l l' : LList R} {e : Entry R} {es : List (Entry R)}

omit [IsStrictWeakOrder R (· < ·)] in
theorem SortedList.of_lists (h : Lists l es) (hes : InOrder Entry.Before es) : SortedList l := by
  obtain rfl := h.entries
  exact ⟨h, hes⟩

omit [IsStrictWeakOrder R (· < ·)] in
/-- What `removeNode` and `addNode` make of a list, if they get that far. -/
theorem SortedList.replace (h : SortedList l)
    (hadd : addNode (removeNode l e.node) e.node e.sortVal = .ok l') :
    (entries l).map Entry.cell ≠ [e.cell] ∧
      Lists l' (insertEntry e ((entries l).eraseP fun d => d.cell = e.cell)) := by
  have hrep := h.lists.replace e rfl
  split at hrep
  · rw [hrep] at hadd
    cases hadd
  · rename_i hmore
    obtain ⟨l'', hadd', hl'⟩ := hrep
    obtain rfl := Except.ok.inj (hadd.symm.trans hadd')
    refine ⟨fun hone => hmore ?_, hl'⟩
    obtain ⟨d, hd, hcell⟩ := List.map_eq_singleton_iff.mp hone
    rw [hd]
    exact ⟨rfl, d, List.mem_singleton_self d, hcell⟩

theorem SortedList.step (h : SortedList l) {c : OpenCall R} (hstep : c.step l = .ok l') :
    SortedList l' := by
  cases c with
  | add e =>
    obtain ⟨l'', hadd, hl'⟩ := h.lists.addNode e.node e.sortVal
    obtain rfl := Except.ok.inj (hadd.symm.trans hstep)
    exact .of_lists hl' (h.inOrder.orderedInsert e)
  | pop =>
    cases hes : entries l with
    | nil =>
      have hl := h.lists
      rw [hes] at hl
      simp only [OpenCall.step, hl.pop_nil] at hstep
      obtain rfl := Except.ok.inj hstep
      exact .of_lists .newList List.Pairwise.nil
    | cons e es =>
      have hl := h.lists
      have hin := h.inOrder
      rw [hes] at hl hin
      obtain ⟨l'', hpop, hl'⟩ := hl.pop_cons
      simp only [OpenCall.step, hpop] at hstep
      obtain rfl := Except.ok.inj hstep
      exact .of_lists hl' hin.of_cons
  | replace e =>
    exact .of_lists (h.replace hstep).2
      (InOrder.orderedInsert (List.Pairwise.sublist List.eraseP_sublist h.inOrder) e)

/-- **Every list of the search is sorted.** -/
theorem sortedList_run {calls : List (OpenCall R)}
    (h : runAll OpenCall.step calls newList = .ok l) : SortedList l :=
  runAll.invariant (fun _ _ _ hs hstep => SortedList.step hs hstep)
    (.of_lists .newList List.Pairwise.nil) h

omit [Double R] [IsStrictWeakOrder R (· < ·)] in
/-- With at most one entry for a cell, `eraseP` takes all of them. -/
theorem filter_eraseP_eq_nil {p : Entry R → Bool} (h : (es.filter p).length ≤ 1) :
    (es.eraseP p).filter p = [] := by
  induction es with
  | nil => rfl
  | cons d es ih =>
    cases hp : p d with
    | true =>
      rw [List.filter_cons_of_pos hp, List.length_cons] at h
      rw [List.eraseP_cons_of_pos hp]
      exact List.eq_nil_of_length_eq_zero (by omega)
    | false =>
      have hneg : ¬ p d = true := by simp [hp]
      rw [List.filter_cons_of_neg hneg] at h
      rw [List.eraseP_cons_of_neg hneg, List.filter_cons_of_neg hneg]
      exact ih h

omit [Double R] [IsStrictWeakOrder R (· < ·)] in
/-- The others are not touched by it. -/
theorem filter_not_eraseP (p : Entry R → Bool) :
    ((es.eraseP p).filter fun d => !p d) = es.filter fun d => !p d := by
  induction es with
  | nil => rfl
  | cons d es ih =>
    cases hp : p d with
    | true =>
      rw [List.eraseP_cons_of_pos hp, List.filter_cons_of_neg (by simp [hp])]
    | false =>
      rw [List.eraseP_cons_of_neg (by simp [hp]), List.filter_cons_of_pos (by simp [hp]),
        List.filter_cons_of_pos (by simp [hp]), ih]

/-- What the entries of the list are afterwards. -/
theorem SortedList.replaced (h : SortedList l)
    (hl' : Lists l' (insertEntry e ((entries l).eraseP fun d => d.cell = e.cell)))
    (hone : ((entries l).filter fun d => d.cell = e.cell).length ≤ 1) : Replaced l e l' := by
  have hin : InOrder Entry.Before ((entries l).eraseP fun d => d.cell = e.cell) :=
    List.Pairwise.sublist List.eraseP_sublist h.inOrder
  refine { toSortedList := .of_lists hl' (hin.orderedInsert e), once := ?_, others := ?_ }
  · have hfilter := hin.filter_orderedInsert (fun d => d.cell = e.cell) e
    rw [if_pos (decide_eq_true rfl), filter_eraseP_eq_nil hone] at hfilter
    rw [hl'.entries]
    exact hfilter
  · have hfilter := hin.filter_orderedInsert (fun d => d.cell ≠ e.cell) e
    rw [if_neg (by simp)] at hfilter
    rw [hl'.entries]
    refine hfilter.trans ?_
    simpa using filter_not_eraseP fun d : Entry R => decide (d.cell = e.cell)

/-- **A new value for a node**: the list is right afterwards, unless the node was the only
one. Then `removeNode` leaves no cell at all, and `addNode` follows the null pointer. The list may
be any that the calls of the search build, with the node in it once or not at all. -/
theorem removeNode_addNode_iff {calls : List (OpenCall R)}
    (h : runAll OpenCall.step calls newList = .ok l)
    (hone : ((entries l).filter fun d => d.cell = e.cell).length ≤ 1) :
    (∃ l', addNode (removeNode l e.node) e.node e.sortVal = .ok l' ∧ Replaced l e l') ↔
      (entries l).map Entry.cell ≠ [e.cell] := by
  have hl := sortedList_run h
  constructor
  · rintro ⟨l', hadd, -⟩
    exact (hl.replace hadd).1
  · intro hmore
    have hrep := hl.lists.replace e rfl
    split at hrep
    · rename_i hsingle
      obtain ⟨hlen, d, hd, hcell⟩ := hsingle
      obtain ⟨d', hd'⟩ := List.length_eq_one_iff.mp hlen
      rw [hd'] at hd hmore
      obtain rfl := List.mem_singleton.mp hd
      exact absurd (congrArg (fun c => [c]) hcell) hmore
    · obtain ⟨l', hadd, hl'⟩ := hrep
      exact ⟨l', hadd, hl.replaced hl' hone⟩

end OpenCalls

/-- The entry for cell `(1, 2)`, and the one for cell `(3, 4)`, with these values. -/
noncomputable def entryOne (v : ℝ) : Entry ℝ := ⟨newNode 1 2 0, v⟩

noncomputable def entryTwo (v : ℝ) : Entry ℝ := ⟨newNode 3 4 0, v⟩

theorem run_two : runAll OpenCall.step [.add (entryOne 5), .add (entryTwo 6)] newList
    = .ok (cellsOf [entryOne 5, entryTwo 6]) := by
  have hadd := addNode_cellsOf (entryOne 5) [] (entryTwo 6).node (entryTwo 6).sortVal
  have hinsert : insertEntry (entryTwo 6) [entryOne 5] = [entryOne 5, entryTwo 6] := by
    unfold insertEntry
    rw [List.orderedInsert_cons, if_neg, List.orderedInsert_nil]
    show ¬ (6 : ℝ) < 5
    norm_num
  rw [show (⟨(entryTwo 6).node, (entryTwo 6).sortVal⟩ : Entry ℝ) = entryTwo 6 from rfl,
    hinsert] at hadd
  exact runAll_cons.mpr ⟨cellsOf [entryOne 5], rfl, runAll_cons.mpr ⟨_, hadd, rfl⟩⟩

/-- The second of two nodes gets a new value. -/
theorem removeNode_addNode_two : runAll OpenCall.step [.add (entryOne 5), .add (entryTwo 6)] newList
      = .ok (cellsOf [entryOne 5, entryTwo 6]) ∧
    ((∃ l', addNode (removeNode (cellsOf [entryOne 5, entryTwo 6]) (entryTwo 3).node)
        (entryTwo 3).node (entryTwo 3).sortVal = .ok l' ∧
        Replaced (cellsOf [entryOne 5, entryTwo 6]) (entryTwo 3) l') ↔
      (entries (cellsOf [entryOne 5, entryTwo 6])).map Entry.cell ≠ [(entryTwo 3).cell]) :=
  ⟨run_two, removeNode_addNode_iff run_two (by rw [entries_cellsOf]; decide)⟩

/-- **The only node of a list cannot get a new value.** -/
theorem only_node_is_lost : ∃ l : LList ℝ,
    runAll OpenCall.step [.add (entryOne 5)] newList = .ok l ∧
      ((entries l).filter fun d => d.cell = (entryOne 3).cell).length ≤ 1 ∧
      addNode (removeNode l (entryOne 3).node) (entryOne 3).node (entryOne 3).sortVal
        = .error .nullPointer :=
  ⟨cellsOf [entryOne 5], rfl, List.length_filter_le _ _, rfl⟩

end Pint
