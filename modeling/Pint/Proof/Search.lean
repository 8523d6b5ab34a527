import Pint.Program.AStar
import Pint.Proof.NodeList

/-!
# One pass of the search

`searchTurn` on the entries of the open and the closed set. The search pops the first entry
of the open set; if that is not the goal, the pass reads the map around it, closes it, and
offers each free neighbour to the open set. The pass goes wrong in two ways: a read of the
map fails, or the pass replaces the only entry of the open set. In the second `removeNode` leaves
a null pointer, and `addNode` follows it.

So there are two sides to each function: a condition under which it goes wrong (`StrandsAt`,
`Strands`, `StrandsOn`), and what it makes of the entries if it does not (`offer`, `offers`,
`opening`). Both are functions of the entries alone, and no later module looks at list cells.
An offer that is accepted leaves at least two entries unless it replaces the only one, so of all
neighbours of a pass only the first that is not closed can strand it (`visitNeighbors_eq`).

The arithmetic is left open here. `Separate` is what every pass keeps with any arithmetic: a cell
is in one of the two sets at most, and once.
-/

namespace Pint

variable {R : Type} [Double R]

/-! ## The neighbours -/

/-- The map around a cell can be read. -/
def ReadsAround (obs : Obstacles) (m : Int → Int → Bool) (x y : Int) : Prop :=
  ∀ i j, -1 ≤ i → i ≤ 1 → -1 ≤ j → j ≤ 1 → obs (x + i) (y + j) = .ok (m (x + i) (y + j))

/-- The neighbour at this offset is free, and not cut off at its corner. -/
def isFree (m : Int → Int → Bool) (x y : Int) (o : Int × Int) : Bool :=
  ¬ (o.2 = 0 ∧ o.1 = 0) ∧ !m (x + o.1) (y + o.2) ∧
    (o.1.natAbs + o.2.natAbs = 2 → !m (x + o.1) y ∨ !m x (y + o.2))

/-- The entry of a neighbour in the list of `genNeighbors`. -/
def neighborEntry (x y : Int) (o : Int × Int) : Entry R :=
  ⟨newNode (x + o.1) (y + o.2) 0.0, 0.0⟩

/-- The list of `genNeighbors`. -/
def neighborEntries (m : Int → Int → Bool) (x y : Int) : List (Entry R) :=
  (offsets.filter (isFree m x y)).foldl (fun es o => insertEntry (neighborEntry x y o) es) []

theorem mem_offsets {o : Int × Int} :
    o ∈ offsets ↔ -1 ≤ o.1 ∧ o.1 ≤ 1 ∧ -1 ≤ o.2 ∧ o.2 ≤ 1 := by
  obtain ⟨i, j⟩ := o
  simp [offsets]
  omega

omit [Double R] in
theorem takesNeighbor_eq {obs : Obstacles} {m : Int → Int → Bool} {x y : Int}
    (hr : ReadsAround obs m x y) {o : Int × Int} (ho : o ∈ offsets) :
    takesNeighbor obs x y o.1 o.2 = .ok (isFree m x y o) := by
  obtain ⟨hi, hi', hj, hj'⟩ := mem_offsets.mp ho
  have hcorner := hr o.1 o.2 hi hi' hj hj'
  have hrow := hr o.1 0 hi hi' (by omega) (by omega)
  have hcol := hr 0 o.2 (by omega) (by omega) hj hj'
  rw [Int.add_zero] at hrow hcol
  unfold takesNeighbor isFree
  by_cases hself : o.2 = 0 ∧ o.1 = 0
  · simp [hself, Pure.pure, Except.pure]
  · rw [if_neg hself]
    by_cases htwo : o.1.natAbs + o.2.natAbs = 2
    · rw [if_pos htwo]
      cases hm : m (x + o.1) (y + o.2) <;> cases hm' : m (x + o.1) y <;>
        simp [hcorner, hrow, hcol, hm, hm', hself, htwo, Bind.bind, Except.bind, Pure.pure,
          Except.pure]
    · rw [if_neg htwo]
      simp [hcorner, hself, htwo, Bind.bind, Except.bind, Pure.pure, Except.pure]

theorem addNeighbors_eq {obs : Obstacles} {m : Int → Int → Bool} {x y : Int}
    (hr : ReadsAround obs m x y) :
    ∀ (os : List (Int × Int)) (l : LList R) (es : List (Entry R)), os ⊆ offsets → Lists l es →
      ∃ l', addNeighbors obs x y os l = .ok l' ∧
        Lists l' ((os.filter (isFree m x y)).foldl
          (fun es o => insertEntry (neighborEntry x y o) es) es) := by
  intro os
  induction os with
  | nil => exact fun l es _ hl => ⟨l, rfl, hl⟩
  | cons o os ih =>
    intro l es hsub hl
    have ho := takesNeighbor_eq hr (hsub List.mem_cons_self)
    have hos : os ⊆ offsets := fun a ha => hsub (List.mem_cons_of_mem o ha)
    cases hfree : isFree m x y o with
    | false =>
      rw [hfree] at ho
      simpa [addNeighbors, ho, hfree, Bind.bind, Except.bind] using ih l es hos hl
    | true =>
      rw [hfree] at ho
      obtain ⟨l', hadd, hl'⟩ := hl.addNode (newNode (x + o.1) (y + o.2) 0.0) 0.0
      obtain ⟨l'', hrest, hl''⟩ := ih l' _ hos hl'
      refine ⟨l'', ?_, by simpa [hfree, neighborEntry] using hl''⟩
      simpa [addNeighbors, ho, hadd, Bind.bind, Except.bind] using hrest

theorem genNeighbors_eq {obs : Obstacles} {m : Int → Int → Bool} {n : Node R}
    (hr : ReadsAround obs m n.x n.y) :
    ∃ l, genNeighbors obs n = .ok l ∧ Lists l (neighborEntries m n.x n.y) :=
  addNeighbors_eq hr offsets newList [] (fun _ ha => ha) Lists.newList

theorem neighborEntries_perm (m : Int → Int → Bool) (x y : Int) :
    (neighborEntries m x y : List (Entry R)).Perm
      ((offsets.filter (isFree m x y)).map (neighborEntry x y)) := by
  have hfold : ∀ (os : List (Int × Int)) (es : List (Entry R)),
      (os.foldl (fun es o => insertEntry (neighborEntry x y o) es) es).Perm
        (es ++ os.map (neighborEntry x y)) := by
    intro os
    induction os with
    | nil => intro es; simp
    | cons o os ih =>
      intro es
      have hhead := ((insertEntry_perm (neighborEntry x y o) es).append_right
        (os.map (neighborEntry x y)))
      exact ((ih _).trans hhead).trans List.perm_middle.symm
  exact hfold _ []

theorem mem_neighborEntries {m : Int → Int → Bool} {x y : Int} {e : Entry R} :
    e ∈ neighborEntries m x y ↔ ∃ o ∈ offsets, isFree m x y o = true ∧ neighborEntry x y o = e := by
  rw [(neighborEntries_perm m x y).mem_iff]
  simp [and_assoc]

/-- No two entries are for the same cell. -/
def Distinct (es : List (Entry R)) : Prop := (es.map Entry.cell).Nodup

theorem neighborEntries_distinct (m : Int → Int → Bool) (x y : Int) :
    Distinct (neighborEntries m x y : List (Entry R)) := by
  unfold Distinct
  rw [((neighborEntries_perm m x y).map Entry.cell).nodup_iff, List.map_map]
  apply List.Nodup.map
  · intro a b hab
    simp only [Function.comp, neighborEntry, Entry.cell, Node.cell, newNode, PointI.mk.injEq] at hab
    exact Prod.ext (by omega) (by omega)
  · exact List.Nodup.filter _ (by decide)

theorem neighborEntries_length (m : Int → Int → Bool) (x y : Int) :
    (neighborEntries m x y : List (Entry R)).length < 9 := by
  rw [(neighborEntries_perm m x y).length_eq, List.length_map]
  -- the cell itself is never among them
  have hself : isFree m x y (0, 0) = false := by simp [isFree]
  have hlt : (offsets.filter (isFree m x y)).length < offsets.length := by
    rw [List.length_filter_lt_length_iff_exists]
    exact ⟨(0, 0), by simp [offsets], by simp [hself]⟩
  exact hlt

/-! ## A neighbour is offered to the open set -/

/-- The score of a neighbour on the way through `current`. -/
def tentGScore (current n : Node R) : R :=
  current.gScore + estDistance n.x n.y current.x current.y

/-- The entry of a neighbour on the way through `current`. -/
def steppedTo (goal : PointI) (current n : Node R) : Entry R :=
  ⟨{ n with backLink := some current, gScore := tentGScore current n },
    tentGScore current n + estDistanceG goal n.x n.y⟩

/-- There is an entry for this cell. -/
def Has (es : List (Entry R)) (c : PointI) : Prop := ∃ e ∈ es, e.cell = c

instance (es : List (Entry R)) (c : PointI) : Decidable (Has es c) :=
  inferInstanceAs (Decidable (∃ e ∈ es, e.cell = c))

/-- The way through `current` is better than the open set's way to the neighbour, if it has
one. -/
def Improves (current n : Node R) (es : List (Entry R)) : Prop :=
  ∀ e ∈ es.find? fun e => e.cell = n.cell, tentGScore current n < e.node.gScore

instance (current n : Node R) (es : List (Entry R)) : Decidable (Improves current n es) :=
  inferInstanceAs (Decidable
    (∀ e ∈ es.find? fun e => e.cell = n.cell, tentGScore current n < e.node.gScore))

/-- `visitNeighbor` on the entries of the open set, if it does not go wrong. -/
def offer (goal : PointI) (closed : List (Entry R)) (current : Node R) (es : List (Entry R))
    (n : Node R) : List (Entry R) :=
  if ¬ Has closed n.cell ∧ Improves current n es then
    insertEntry (steppedTo goal current n) (es.eraseP fun e => e.cell = n.cell)
  else es

/-- The neighbour takes the place of the only entry of the open set. -/
def StrandsAt (closed : List (Entry R)) (current : Node R) (es : List (Entry R))
    (n : Node R) : Prop :=
  ¬ Has closed n.cell ∧ ∃ e, es = [e] ∧ e.cell = n.cell ∧ tentGScore current n < e.node.gScore

omit [Double R] in
theorem find?_isSome {es : List (Entry R)} {c : PointI} :
    (es.find? fun e => e.cell = c).isSome = true ↔ Has es c := by
  simp [Has]

/-- The tests of `visitNeighbor`, on the entries. -/
theorem visitNeighbor_tests {goal : PointI} {lc lo : LList R} {closed es : List (Entry R)}
    (hc : Lists lc closed) (ho : Lists lo es) (current n : Node R) :
    visitNeighbor goal lc current n lo =
      if ¬ Has closed n.cell ∧ Improves current n es then
        addNode (removeNode lo (steppedTo goal current n).node) (steppedTo goal current n).node
          (steppedTo goal current n).sortVal
      else .ok lo := by
  unfold visitNeighbor
  rw [hc.findNode, ho.findNode]
  cases hclosed : closed.find? fun e => e.cell = n.cell with
  | some e =>
    have hhas : Has closed n.cell := find?_isSome.mp (by rw [hclosed]; rfl)
    simp [hhas, Pure.pure, Except.pure]
  | none =>
    have hhas : ¬ Has closed n.cell := fun h => by
      have hsome := find?_isSome.mpr h
      rw [hclosed] at hsome
      cases hsome
    cases hopen : es.find? fun e => e.cell = n.cell with
    | none =>
      have himp : Improves current n es := by simp [Improves, hopen]
      simp [hhas, himp, steppedTo, tentGScore]
    | some e =>
      have himp : Improves current n es ↔ tentGScore current n < e.node.gScore := by
        simp [Improves, hopen]
      simp [hhas, himp, steppedTo, tentGScore, Pure.pure, Except.pure]

/-- The only entry of the open set is there and to be replaced. -/
theorem strandsAt_iff {closed es : List (Entry R)} {current n : Node R}
    (hhas : ¬ Has closed n.cell) (himp : Improves current n es) :
    StrandsAt closed current es n ↔ es.length = 1 ∧ ∃ e ∈ es, e.cell = n.cell := by
  constructor
  · rintro ⟨-, e, hes, hcell, -⟩
    rw [hes]
    exact ⟨rfl, e, by simp, hcell⟩
  · rintro ⟨hlen, e, he, hcell⟩
    obtain ⟨d, hd⟩ := List.length_eq_one_iff.mp hlen
    have hed : e = d := by simpa [hd] using he
    subst hed
    exact ⟨hhas, e, hd, hcell, himp e (by simp [hd, hcell])⟩

/-- **One neighbour**: the fault if it strands the pass there, and the offer otherwise. -/
theorem visitNeighbor_eq (goal : PointI) {lc lo : LList R} {closed es : List (Entry R)}
    (hc : Lists lc closed) (ho : Lists lo es) (current n : Node R) :
    (StrandsAt closed current es n →
      visitNeighbor goal lc current n lo = .error .nullPointer) ∧
    (¬ StrandsAt closed current es n →
      ∃ l, visitNeighbor goal lc current n lo = .ok l
        ∧ Lists l (offer goal closed current es n)) := by
  rw [visitNeighbor_tests hc ho]
  by_cases hput : ¬ Has closed n.cell ∧ Improves current n es
  · have hreplace := ho.replace (steppedTo goal current n) (c := n.cell) rfl
    rw [if_pos hput, strandsAt_iff hput.1 hput.2, offer, if_pos hput]
    constructor
    · intro hone
      rwa [if_pos hone] at hreplace
    · intro hmore
      rwa [if_neg hmore] at hreplace
  · rw [if_neg hput, offer, if_neg hput]
    constructor
    · rintro ⟨hhas, e, hes, hcell, hlt⟩
      exact absurd ⟨hhas, by simpa [Improves, hes, hcell] using hlt⟩ hput
    · exact fun _ => ⟨lo, rfl, ho⟩

/-! ## All neighbours -/

/-- The open set after the neighbours, if nothing goes wrong. -/
def offers (goal : PointI) (closed : List (Entry R)) (current : Node R)
    (ns es : List (Entry R)) : List (Entry R) :=
  ns.foldl (fun es n => offer goal closed current es n.node) es

/-- The first neighbour that is not closed takes the place of the only entry. Those after it
find more than that entry. -/
def Strands (closed : List (Entry R)) (current : Node R) (ns es : List (Entry R)) : Prop :=
  ∃ n, ns.find? (fun n => ¬ Has closed n.cell) = some n ∧ StrandsAt closed current es n.node

/-- No neighbour has the cell of the only entry. -/
def Clear (ns es : List (Entry R)) : Prop := ∀ e, es = [e] → ∀ n ∈ ns, e.cell ≠ n.cell

theorem Clear.not_strands {closed : List (Entry R)} {current : Node R} {ns es : List (Entry R)}
    (h : Clear ns es) : ¬ Strands closed current ns es := by
  rintro ⟨n, hfind, -, e, hes, hcell, -⟩
  exact h e hes n (List.mem_of_find?_eq_some hfind) hcell

theorem offer_clear {goal : PointI} {closed : List (Entry R)} {current : Node R}
    {n : Entry R} {ns es : List (Entry R)} (hns : Distinct (n :: ns))
    (hnew : ¬ Has closed n.cell) : Clear ns (offer goal closed current es n.node) := by
  have hother : ∀ d : Entry R, d.cell = n.cell → ∀ b ∈ ns, d.cell ≠ b.cell := by
    intro d hd b hb hdb
    have hnotin := (List.nodup_cons.mp hns).1
    exact hnotin (List.mem_map.mpr ⟨b, hb, hdb.symm.trans hd⟩)
  intro d hd
  by_cases himp : Improves current n.node es
  · rw [offer, if_pos ⟨hnew, himp⟩] at hd
    have hmem : steppedTo goal current n.node ∈ [d] := by
      rw [← hd]
      exact mem_insertEntry.mpr (Or.inl rfl)
    rw [← List.mem_singleton.mp hmem]
    exact hother _ rfl
  · rw [offer, if_neg (fun h => himp h.2)] at hd
    apply hother
    -- a neighbour that is no better is there already
    by_contra hcell
    apply himp
    intro b hb
    rw [hd] at hb
    have hcell' : ¬ d.cell = n.node.cell := hcell
    simp [hcell'] at hb

theorem strands_cons_closed {closed : List (Entry R)} {current : Node R} {n : Entry R}
    {ns es : List (Entry R)} (hn : Has closed n.cell) :
    Strands closed current (n :: ns) es ↔ Strands closed current ns es := by
  simp [Strands, hn]

theorem strands_cons_new {closed : List (Entry R)} {current : Node R} {n : Entry R}
    {ns es : List (Entry R)} (hn : ¬ Has closed n.cell) :
    Strands closed current (n :: ns) es ↔ StrandsAt closed current es n.node := by
  simp [Strands, hn]

/-- **All neighbours**, in the order of `genNeighbors`. The induction is on the neighbours that are
left; after the first that is not closed the open set has more than one entry. -/
theorem visitNeighbors_eq (goal : PointI) {lc : LList R} {closed : List (Entry R)}
    (hc : Lists lc closed) (current : Node R) :
    ∀ (ns es : List (Entry R)) (ln lo : LList R) (k : Nat), Lists ln ns → Lists lo es →
      Distinct ns → ns.length < k →
      (Strands closed current ns es →
        visitNeighbors goal lc current k ln lo = .error .nullPointer) ∧
      (¬ Strands closed current ns es →
        ∃ l, visitNeighbors goal lc current k ln lo = .ok l
          ∧ Lists l (offers goal closed current ns es)) := by
  intro ns
  induction ns with
  | nil =>
    intro es ln lo k hn ho _ hk
    obtain ⟨k, rfl⟩ := Nat.exists_eq_add_one_of_ne_zero (Nat.ne_of_gt hk)
    refine ⟨fun ⟨n, hfind, _⟩ => by simp at hfind, fun _ => ⟨lo, ?_, ho⟩⟩
    simp [visitNeighbors, hn.pop_nil, Bind.bind, Except.bind, Pure.pure, Except.pure]
  | cons n ns ih =>
    intro es ln lo k hn ho hns hk
    obtain ⟨k, rfl⟩ := Nat.exists_eq_add_one_of_ne_zero (Nat.ne_of_gt (Nat.zero_lt_of_lt hk))
    obtain ⟨ln', hpop, hn'⟩ := hn.pop_cons
    have hns' : Distinct ns := (List.nodup_cons.mp hns).2
    have hk' : ns.length < k := Nat.lt_of_succ_lt_succ hk
    obtain ⟨hbad, hgood⟩ := visitNeighbor_eq goal hc ho current n.node
    have hstep : visitNeighbors goal lc current (k + 1) ln lo =
        visitNeighbor goal lc current n.node lo >>= visitNeighbors goal lc current k ln' := by
      simp [visitNeighbors, hpop, Bind.bind, Except.bind]
    rw [hstep]
    by_cases hclosed : Has closed n.cell
    · rw [strands_cons_closed hclosed]
      obtain ⟨l, hvisit, hl⟩ := hgood (fun h => h.1 hclosed)
      rw [hvisit]
      have hsame : offer goal closed current es n.node = es := if_neg fun h => h.1 hclosed
      rw [hsame] at hl
      rw [offers, List.foldl_cons, hsame]
      exact ih es ln' l k hn' hl hns' hk'
    · rw [strands_cons_new hclosed]
      constructor
      · intro hstrands
        rw [hbad hstrands]
        rfl
      · intro hone
        obtain ⟨l, hvisit, hl⟩ := hgood hone
        rw [hvisit]
        exact (ih _ ln' l k hn' hl hns' hk').2 (offer_clear hns hclosed).not_strands

/-! ## What the neighbours leave -/

section

variable {goal : PointI} {closed : List (Entry R)} {current n : Node R} {es : List (Entry R)}

omit [Double R] in
theorem Distinct.eraseP_ne {es : List (Entry R)} (h : Distinct es) (c : PointI) :
    ∀ e ∈ es.eraseP fun e => e.cell = c, e.cell ≠ c := by
  induction es with
  | nil => exact fun e he => absurd he (List.not_mem_nil)
  | cons d es ih =>
    obtain ⟨hd, hes⟩ := List.nodup_cons.mp h
    intro e he
    by_cases hc : d.cell = c
    · have he' : e ∈ es := by simpa [hc] using he
      intro hce
      exact hd (List.mem_map.mpr ⟨e, he', hce.trans hc.symm⟩)
    · have he' : e = d ∨ e ∈ es.eraseP fun e => e.cell = c := by simpa [hc] using he
      rcases he' with rfl | he'
      · exact hc
      · exact ih hes e he'

theorem mem_offer {e : Entry R} (he : e ∈ offer goal closed current es n) :
    e ∈ es ∨ e = steppedTo goal current n ∧ ¬ Has closed n.cell := by
  unfold offer at he
  split at he
  · rename_i hput
    rcases mem_insertEntry.mp he with rfl | he
    · exact Or.inr ⟨rfl, hput.1⟩
    · exact Or.inl (List.mem_of_mem_eraseP he)
  · exact Or.inl he

theorem Distinct.insertEntry {e : Entry R} (h : Distinct es) (hnew : ∀ d ∈ es, d.cell ≠ e.cell) :
    Distinct (insertEntry e es) := by
  unfold Distinct
  rw [((insertEntry_perm e es).map Entry.cell).nodup_iff, List.map_cons, List.nodup_cons]
  refine ⟨fun hmem => ?_, h⟩
  obtain ⟨d, hd, hcell⟩ := List.mem_map.mp hmem
  exact hnew d hd hcell

theorem Distinct.offer (h : Distinct es) : Distinct (offer goal closed current es n) := by
  unfold Pint.offer
  split
  · apply Distinct.insertEntry
    · exact List.Nodup.sublist ((List.eraseP_sublist).map Entry.cell) h
    · exact h.eraseP_ne n.cell
  · exact h

theorem mem_offers {e : Entry R} :
    ∀ {ns es : List (Entry R)}, e ∈ offers goal closed current ns es →
      e ∈ es ∨ ∃ n ∈ ns, e = steppedTo goal current n.node ∧ ¬ Has closed n.cell := by
  intro ns
  induction ns with
  | nil => exact fun he => Or.inl he
  | cons n ns ih =>
    intro es he
    rcases ih he with he | ⟨b, hb, hcase⟩
    · rcases mem_offer he with he | hcase
      · exact Or.inl he
      · exact Or.inr ⟨n, List.mem_cons_self, hcase⟩
    · exact Or.inr ⟨b, List.mem_cons_of_mem n hb, hcase⟩

theorem Distinct.offers {ns : List (Entry R)} :
    ∀ {es : List (Entry R)}, Distinct es → Distinct (offers goal closed current ns es) := by
  induction ns with
  | nil => exact fun h => h
  | cons n ns ih => exact fun h => ih h.offer

end

/-! ## The pass -/

/-- The sets of a search have these entries. -/
structure Search.Holds (s : Search R) (opened closed : List (Entry R)) : Prop where
  openSet : Lists s.openSet opened
  closedSet : Lists s.closedSet closed

/-- The closed set after a pass that pops `e`. -/
def closing (goal : PointI) (e : Entry R) (closed : List (Entry R)) : List (Entry R) :=
  insertEntry ⟨e.node, estDistanceG goal e.node.x e.node.y⟩ closed

/-- The open set after a pass that pops `e`. -/
def opening (m : Int → Int → Bool) (goal : PointI) (e : Entry R)
    (opened closed : List (Entry R)) : List (Entry R) :=
  offers goal (closing goal e closed) e.node (neighborEntries m e.node.x e.node.y) opened

/-- The pass that pops `e` replaces the only entry of the open set. -/
def StrandsOn (m : Int → Int → Bool) (goal : PointI) (e : Entry R)
    (opened closed : List (Entry R)) : Prop :=
  Strands (closing goal e closed) e.node (neighborEntries m e.node.x e.node.y) opened

/-- A cell is in one of the sets at most, and only once. -/
structure Separate (opened closed : List (Entry R)) : Prop where
  distinctOpened : Distinct opened
  distinctClosed : Distinct closed
  apart : ∀ e ∈ opened, ¬ Has closed e.cell

omit [Double R] in
theorem has_cons {e : Entry R} {es : List (Entry R)} {c : PointI} :
    Has (e :: es) c ↔ e.cell = c ∨ Has es c := by
  simp [Has]

theorem has_closing {goal : PointI} {e : Entry R} {closed : List (Entry R)} {c : PointI} :
    Has (closing goal e closed) c ↔ e.cell = c ∨ Has closed c := by
  have hperm := insertEntry_perm ⟨e.node, estDistanceG goal e.node.x e.node.y⟩ closed
  have hhas : Has (closing goal e closed) c ↔
      Has (⟨e.node, estDistanceG goal e.node.x e.node.y⟩ :: closed) c := by
    simp only [Has, closing, hperm.mem_iff]
  rw [hhas, has_cons]
  rfl

theorem Separate.next {m : Int → Int → Bool} {goal : PointI} {e : Entry R}
    {opened closed : List (Entry R)} (h : Separate (e :: opened) closed) :
    Separate (opening m goal e opened closed) (closing goal e closed) := by
  obtain ⟨hnew, hopened⟩ := List.nodup_cons.mp h.distinctOpened
  have hpopped : ¬ Has closed e.cell := h.apart e List.mem_cons_self
  refine ⟨Distinct.offers hopened, h.distinctClosed.insertEntry ?_, ?_⟩
  · exact fun d hd hcell => hpopped ⟨d, hd, hcell⟩
  · intro d hd
    rcases mem_offers hd with hd | ⟨n, -, rfl, hn⟩
    · rw [has_closing]
      rintro (hcell | hhas)
      · exact hnew (List.mem_map.mpr ⟨d, hd, hcell.symm⟩)
      · exact h.apart d (List.mem_cons_of_mem e hd) hhas
    · exact hn

section

variable {obs : Obstacles} {goal : PointI} {s : Search R} {e : Entry R}
  {opened closed : List (Entry R)}

/-- The open set is never the null pointer. -/
theorem searchTurn_pop (h : s.openSet ≠ []) :
    searchTurn obs goal s = (do
      match ← pop s.openSet with
      | (none, _) => return .failed
      | (some current, openSet) =>
        if nodeEqauls current (newNode goal.x goal.y 0.0) then return .solved current
        else do
          let closedSet ← addNode s.closedSet current (estDistanceG goal current.x current.y)
          let neighbors ← genNeighbors obs current
          let openSet ← visitNeighbors goal closedSet current 9 neighbors openSet
          return .next { openSet, closedSet }) := by
  unfold searchTurn
  cases hs : s.openSet with
  | nil => exact absurd hs h
  | cons c cs => rfl

theorem searchTurn_failed (h : s.Holds [] closed) : searchTurn obs goal s = .ok .failed := by
  rw [searchTurn_pop h.openSet.ne_nil, h.openSet.pop_nil]
  rfl

theorem searchTurn_solved (h : s.Holds (e :: opened) closed) (hgoal : e.cell = goal) :
    searchTurn obs goal s = .ok (.solved e.node) := by
  obtain ⟨l, hpop, -⟩ := h.openSet.pop_cons
  have heq : nodeEqauls e.node (newNode goal.x goal.y 0.0) = true :=
    (nodeEqauls_iff _ _).mpr hgoal
  rw [searchTurn_pop h.openSet.ne_nil, hpop]
  simp [heq, Bind.bind, Except.bind, Pure.pure, Except.pure]

/-- A pass that closes an entry. -/
theorem searchTurn_closes (obs : Obstacles) (h : s.Holds (e :: opened) closed)
    (hgoal : e.cell ≠ goal) :
    ∃ lc lo, Lists lc (closing goal e closed) ∧ Lists lo opened ∧
      searchTurn obs goal s = (do
        let neighbors ← genNeighbors obs e.node
        let openSet ← visitNeighbors goal lc e.node 9 neighbors lo
        return .next { openSet, closedSet := lc }) := by
  obtain ⟨lo, hpop, ho⟩ := h.openSet.pop_cons
  obtain ⟨lc, hadd, hc⟩ := h.closedSet.addNode e.node (estDistanceG goal e.node.x e.node.y)
  have heq : ¬ nodeEqauls e.node (newNode goal.x goal.y 0.0) = true :=
    fun heq => hgoal ((nodeEqauls_iff _ _).mp heq)
  refine ⟨lc, lo, hc, ho, ?_⟩
  rw [searchTurn_pop h.openSet.ne_nil, hpop]
  simp [heq, hadd, Bind.bind, Except.bind]

/-- A pass that closes an entry and can read the map around it: it is the fault or the two new
sets, and which of them `StrandsOn` tells. -/
theorem searchTurn_next {m : Int → Int → Bool} (h : s.Holds (e :: opened) closed)
    (hgoal : e.cell ≠ goal) (hr : ReadsAround obs m e.node.x e.node.y) :
    (StrandsOn m goal e opened closed → searchTurn obs goal s = .error .nullPointer) ∧
    (¬ StrandsOn m goal e opened closed → ∃ s', searchTurn obs goal s = .ok (.next s') ∧
      s'.Holds (opening m goal e opened closed) (closing goal e closed)) := by
  obtain ⟨lc, lo, hc, ho, hturn⟩ := searchTurn_closes obs h hgoal
  obtain ⟨ln, hgen, hn⟩ := genNeighbors_eq hr
  obtain ⟨hbad, hgood⟩ := visitNeighbors_eq goal hc e.node _ opened ln lo 9 hn ho
    (neighborEntries_distinct m _ _) (neighborEntries_length m _ _)
  rw [hturn, hgen]
  constructor
  · intro hstrands
    simp [hbad hstrands, Bind.bind, Except.bind]
  · intro hone
    obtain ⟨l, hvisit, hl⟩ := hgood hone
    refine ⟨{ openSet := l, closedSet := lc }, ?_, hl, hc⟩
    simp [hvisit, Bind.bind, Except.bind, Pure.pure, Except.pure]

end

/-- What the search starts with. -/
theorem searchStart_eq (pose goal : PointI) : ∃ s : Search R,
    searchStart pose goal = .ok s ∧
      s.Holds [⟨newNode pose.x pose.y 0.0, estDistanceG goal pose.x pose.y⟩] [] := by
  obtain ⟨l, hadd, hl⟩ := (Lists.newList (R := R)).addNode (newNode pose.x pose.y 0.0)
    (estDistanceG goal pose.x pose.y)
  refine ⟨{ openSet := l, closedSet := newList }, ?_, hl, Lists.newList⟩
  simp [searchStart, hadd, Bind.bind, Except.bind, Pure.pure, Except.pure]

end Pint
