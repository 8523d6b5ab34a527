import Pint.Program.Mapping
import Mathlib.Data.List.Sort

/-!
# The linked lists of nodes

What the operations of `mapping.c` do to the entries of a list. A list of the search has its
entries in its cells, or it is one cell without a node. The one way to get the null pointer
is `removeNode` of the only entry, and `addNode` follows it.

`Lists l es` is the relation between the cells and the entries, and there is one lemma for each
operation: `addNode` inserts before the first greater value, `pop` takes the first entry and
leaves an empty cell behind the last, `removeNode` takes the first entry with these coordinates,
and `findNode` finds it. From here on the search is about lists of entries.
-/

namespace Pint

variable {R : Type}

/-- A node in a list, with the value it is sorted by. -/
structure Entry (R : Type) where
  node : Node R
  sortVal : R

def Node.cell (n : Node R) : PointI := ⟨n.x, n.y⟩

def Entry.cell (e : Entry R) : PointI := e.node.cell

theorem nodeEqauls_iff (a b : Node R) : nodeEqauls a b = true ↔ a.cell = b.cell := by
  simp [nodeEqauls, Node.cell]

/-- The entries of a list, as a reader that follows the cells finds them. -/
def entries (l : LList R) : List (Entry R) :=
  l.filterMap fun c => c.head.map fun node => ⟨node, c.sortVal⟩

/-- The cells of a list of nodes. -/
def pathCells (l : LList R) : List PointI := (entries l).map Entry.cell

/-- The cells with these entries. -/
def cellsOf (es : List (Entry R)) : LList R := es.map fun e => ⟨some e.node, e.sortVal⟩

@[simp] theorem cellsOf_cons (e : Entry R) (es : List (Entry R)) :
    cellsOf (e :: es) = ⟨some e.node, e.sortVal⟩ :: cellsOf es := rfl

@[simp] theorem entries_cellsOf (es : List (Entry R)) : entries (cellsOf es) = es := by
  induction es with
  | nil => rfl
  | cons e es ih => simpa [entries] using ih

/-- A list of the code with these entries: one empty cell if there are none. -/
inductive Lists : LList R → List (Entry R) → Prop where
  | empty (v : R) : Lists [⟨none, v⟩] []
  | cells (e : Entry R) (es : List (Entry R)) : Lists (cellsOf (e :: es)) (e :: es)

theorem Lists.entries {l : LList R} {es : List (Entry R)} (h : Lists l es) :
    entries l = es := by
  cases h with
  | empty v => rfl
  | cells e es => exact entries_cellsOf (e :: es)

theorem Lists.ne_nil {l : LList R} {es : List (Entry R)} (h : Lists l es) : l ≠ [] := by
  cases h with
  | empty v => exact List.cons_ne_nil _ _
  | cells e es => exact List.cons_ne_nil _ _

theorem Lists.of_ne_nil {es : List (Entry R)} (h : es ≠ []) : Lists (cellsOf es) es := by
  cases es with
  | nil => exact absurd rfl h
  | cons e es => exact .cells e es

/-! ## `removeNode` and `findNode` -/

theorem removeNode_cellsOf (es : List (Entry R)) (n : Node R) :
    removeNode (cellsOf es) n = cellsOf (es.eraseP fun e => e.cell = n.cell) := by
  induction es with
  | nil => rfl
  | cons e es ih =>
    by_cases h : e.cell = n.cell
    · have he : nodeEqauls e.node n = true := (nodeEqauls_iff _ _).mpr h
      simp [removeNode, he, h]
    · have he : ¬ nodeEqauls e.node n = true := fun he => h ((nodeEqauls_iff _ _).mp he)
      simp [removeNode, he, h, ih]

theorem findNode_cellsOf (es : List (Entry R)) (n : Node R) :
    findNode (cellsOf es) n = (es.find? fun e => e.cell = n.cell).map Entry.node := by
  induction es with
  | nil => rfl
  | cons e es ih =>
    by_cases h : e.cell = n.cell
    · have he : nodeEqauls n e.node = true := (nodeEqauls_iff _ _).mpr h.symm
      simp [findNode, he, h]
    · have he : ¬ nodeEqauls n e.node = true := fun he => h ((nodeEqauls_iff _ _).mp he).symm
      simp [findNode, he, h, ih]

theorem Lists.findNode {l : LList R} {es : List (Entry R)} (h : Lists l es) (n : Node R) :
    findNode l n = (es.find? fun e => e.cell = n.cell).map Entry.node := by
  cases h with
  | empty v => rfl
  | cells e es => exact findNode_cellsOf (e :: es) n

/-! ## `addNode` and `pop` -/

variable [Double R]

/-- The place of an entry is before the first one with a greater value. -/
def insertEntry (e : Entry R) (es : List (Entry R)) : List (Entry R) :=
  es.orderedInsert (fun a b => a.sortVal < b.sortVal) e

theorem insertEntry_perm (e : Entry R) (es : List (Entry R)) :
    (insertEntry e es).Perm (e :: es) :=
  List.perm_orderedInsert _ e es

theorem mem_insertEntry {a e : Entry R} {es : List (Entry R)} :
    a ∈ insertEntry e es ↔ a = e ∨ a ∈ es :=
  List.mem_orderedInsert _

theorem insertEntry_ne_nil (e : Entry R) (es : List (Entry R)) : insertEntry e es ≠ [] := by
  intro h
  have hlen := (insertEntry_perm e es).length_eq
  rw [h] at hlen
  simp at hlen

theorem addNode_cellsOf (e : Entry R) (es : List (Entry R)) (n : Node R) (v : R) :
    addNode (cellsOf (e :: es)) n v = .ok (cellsOf (insertEntry ⟨n, v⟩ (e :: es))) := by
  induction es generalizing e with
  | nil =>
    by_cases h : v < e.sortVal
    · simp [addNode, insertEntry, h, cellsOf]
    · simp [addNode, insertEntry, h, cellsOf]
  | cons d es ih =>
    by_cases h : v < e.sortVal
    · simp [addNode, insertEntry, h]
    · have hrest := ih d
      rw [cellsOf_cons, cellsOf_cons, addNode]
      simp only [h, if_false]
      rw [cellsOf_cons] at hrest
      rw [hrest]
      simp [insertEntry, h, Bind.bind, Except.bind, Pure.pure, Except.pure]

theorem Lists.addNode {l : LList R} {es : List (Entry R)} (h : Lists l es) (n : Node R)
    (v : R) : ∃ l', addNode l n v = .ok l' ∧ Lists l' (insertEntry ⟨n, v⟩ es) := by
  cases h with
  | empty w => exact ⟨cellsOf [⟨n, v⟩], rfl, .cells ⟨n, v⟩ []⟩
  | cells e es =>
    exact ⟨_, addNode_cellsOf e es n v, .of_ne_nil (insertEntry_ne_nil _ _)⟩

theorem Lists.newList : Lists (newList : LList R) [] := .empty _

theorem Lists.pop_nil {l : LList R} (h : Lists l []) : pop l = .ok (none, Pint.newList) := by
  cases h with
  | empty v => rfl

theorem Lists.pop_cons {l : LList R} {e : Entry R} {es : List (Entry R)}
    (h : Lists l (e :: es)) : ∃ l', pop l = .ok (some e.node, l') ∧ Lists l' es := by
  cases h with
  | cells _ _ =>
    cases es with
    | nil => exact ⟨Pint.newList, rfl, .newList⟩
    | cons d es => exact ⟨cellsOf (d :: es), rfl, .cells d es⟩

/-- Taking an entry out and putting another in: `addNode` gets the null pointer exactly if
the entry was the only one. -/
theorem Lists.replace {l : LList R} {es : List (Entry R)} (h : Lists l es) (d : Entry R)
    {c : PointI} (hd : d.cell = c) :
    if es.length = 1 ∧ ∃ e ∈ es, e.cell = c then
      Pint.addNode (removeNode l d.node) d.node d.sortVal = .error .nullPointer
    else ∃ l', Pint.addNode (removeNode l d.node) d.node d.sortVal = .ok l'
      ∧ Lists l' (insertEntry d (es.eraseP fun e => e.cell = c)) := by
  subst hd
  obtain ⟨n, v⟩ := d
  have hcell : (⟨n, v⟩ : Entry R).cell = n.cell := rfl
  simp only [hcell]
  cases h with
  | empty w =>
    simpa using ⟨_, rfl, Lists.cells (⟨n, v⟩ : Entry R) []⟩
  | cells e es =>
    rw [removeNode_cellsOf]
    have hin : ∀ fs : List (Entry R), fs ≠ [] →
        ∃ l', Pint.addNode (cellsOf fs) n v = .ok l' ∧ Lists l' (insertEntry ⟨n, v⟩ fs) :=
      fun fs hfs => (Lists.of_ne_nil hfs).addNode n v
    -- Only where the one entry is the one to be replaced is nothing left to insert into.
    split
    · rename_i hone
      obtain ⟨hlen, d, hd, hcell⟩ := hone
      have hes : es = [] := by simpa using hlen
      subst hes
      have hde : d = e := by simpa using hd
      subst hde
      simp [hcell, cellsOf, Pint.addNode]
    · rename_i hmore
      apply hin
      intro hnil
      apply hmore
      cases es with
      | nil =>
        by_cases hcell : e.cell = n.cell
        · exact ⟨rfl, e, by simp, hcell⟩
        · simp [hcell] at hnil
      | cons d ds =>
        by_cases hcell : e.cell = n.cell
        · simp [hcell] at hnil
        · simp [hcell] at hnil

end Pint
