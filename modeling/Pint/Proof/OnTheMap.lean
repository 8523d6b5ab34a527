import Pint.Proof.Exact
import Pint.Proof.Search
import Mathlib.Logic.Relation

/-!
# The search ends, on the map

Each pass closes one more cell of the map, so there are at most `GRID_NUM * GRID_NUM` passes.
What can stop the search before its end is a pass that pops a cell on the border of the map
and reads past it, or a pass that replaces the only entry of the open set: `removeNode` then
leaves no list at all, and `addNode` follows it.

Here that is said of the sets before each pass (`Search.Passes`), for any arithmetic. Which
maps, poses and goals lead to such sets is the subject of `Proof.Contained`.

`Search.OnMap` is what the passes keep: the entries of both sets are cells of the map, each cell
once. A pass that goes on closes the cell that it popped, which was not closed before, and what
it opens are neighbours of a cell that has the map around it. The bound on the number of passes
needs no condition at all: also a pass that goes wrong has closed only new cells before.
-/

namespace Pint

open Relation

variable {R : Type} [Double R]

/-- The cells around it are on the map. -/
def Inner (c : PointI) : Prop :=
  1 ≤ c.x ∧ c.x + 1 < gridNum ∧ 1 ≤ c.y ∧ c.y + 1 < gridNum

instance (c : PointI) : Decidable (Inner c) :=
  inferInstanceAs (Decidable (1 ≤ c.x ∧ c.x + 1 < gridNum ∧ 1 ≤ c.y ∧ c.y + 1 < gridNum))

/-! ## Reads of the map -/

theorem Inner.readsAround {m : Grid Bool} {x y : Int} (h : Inner ⟨x, y⟩) :
    ReadsAround m.get m x y := by
  intro i j hi hi' hj hj'
  unfold Inner at h
  simp only at h
  rw [Grid.get, if_pos]
  unfold InGrid
  omega

theorem grid_get_cases (m : Grid Bool) (x y : Int) :
    m.get x y = .ok (m x y) ∨ m.get x y = .error .outOfRange := by
  unfold Grid.get
  split
  · exact Or.inl rfl
  · exact Or.inr rfl

theorem takesNeighbor_cases (m : Grid Bool) (x y i j : Int) :
    (∃ b, takesNeighbor m.get x y i j = .ok b) ∨
      takesNeighbor m.get x y i j = .error .outOfRange := by
  unfold takesNeighbor
  by_cases hself : j = 0 ∧ i = 0
  · simp [hself, Pure.pure, Except.pure]
  · rcases grid_get_cases m (x + i) (y + j) with h | h <;>
      rcases grid_get_cases m (x + i) y with h' | h' <;>
      rcases grid_get_cases m x (y + j) with h'' | h'' <;>
      simp only [hself, h, h', h'', if_false, Bind.bind, Except.bind, Pure.pure, Except.pure] <;>
      grind

theorem takesNeighbor_outside {m : Grid Bool} {x y i j : Int} (hself : ¬ (j = 0 ∧ i = 0))
    (hout : ¬ InGrid (x + i) (y + j)) :
    takesNeighbor m.get x y i j = .error .outOfRange := by
  have hget : m.get (x + i) (y + j) = .error .outOfRange := if_neg hout
  unfold takesNeighbor
  simp [hself, hget, Bind.bind, Except.bind]

theorem addNeighbors_outside {m : Grid Bool} {x y : Int} {o : Int × Int}
    (hself : ¬ (o.2 = 0 ∧ o.1 = 0)) (hout : ¬ InGrid (x + o.1) (y + o.2)) :
    ∀ (os : List (Int × Int)) (l : LList R) (es : List (Entry R)), o ∈ os → Lists l es →
      addNeighbors m.get x y os l = .error .outOfRange := by
  intro os
  induction os with
  | nil => exact fun l es ho => absurd ho List.not_mem_nil
  | cons p os ih =>
    intro l es ho hl
    rcases takesNeighbor_cases m x y p.1 p.2 with ⟨b, hb⟩ | hbad
    · have hrest : o ∈ os := by
        rcases List.mem_cons.mp ho with rfl | ho
        · rw [takesNeighbor_outside hself hout] at hb
          cases hb
        · exact ho
      cases b with
      | false => simpa [addNeighbors, hb, Bind.bind, Except.bind] using ih l es hrest hl
      | true =>
        obtain ⟨l', hadd, hl'⟩ := hl.addNode (newNode (x + p.1) (y + p.2) 0.0) 0.0
        simpa [addNeighbors, hb, hadd, Bind.bind, Except.bind] using ih l' _ hrest hl'
    · simp [addNeighbors, hbad, Bind.bind, Except.bind]

/-- On the border of the map `genNeighbors` reads past it. -/
theorem genNeighbors_outside {m : Grid Bool} {n : Node R} (hin : InGrid n.x n.y)
    (h : ¬ Inner n.cell) : genNeighbors m.get n = .error .outOfRange := by
  have hbad : ∃ o ∈ offsets, ¬ (o.2 = 0 ∧ o.1 = 0) ∧ ¬ InGrid (n.x + o.1) (n.y + o.2) := by
    unfold Inner Node.cell at h
    simp only at h
    unfold InGrid at hin ⊢
    by_cases hlow : n.x = 0 ∨ n.y = 0
    · exact ⟨(-1, -1), by decide, by decide, by simp only; omega⟩
    · exact ⟨(1, 1), by decide, by decide, by simp only; omega⟩
  obtain ⟨o, ho, hself, hout⟩ := hbad
  exact addNeighbors_outside hself hout offsets newList [] ho Lists.newList

/-! ## What a pass keeps -/

/-- The sets of a search on the map. -/
structure Search.OnMap (s : Search R) (opened closed : List (Entry R)) : Prop where
  holds : s.Holds opened closed
  separate : Separate opened closed
  inGrid : ∀ e ∈ opened ++ closed, InGrid e.cell.x e.cell.y

/-- The next pass pops the goal or a cell with the map around it, and does not replace the
only entry of the open set. -/
def Search.Passes (m : Grid Bool) (goal : PointI) (s : Search R) : Prop :=
  match entries s.openSet with
  | [] => True
  | e :: opened =>
    e.cell = goal ∨ Inner e.cell ∧ ¬ StrandsOn m goal e opened (entries s.closedSet)

section

variable {m : Grid Bool} {goal : PointI} {s : Search R} {e : Entry R}
  {opened closed : List (Entry R)}

theorem opening_inGrid (he : Inner e.cell) (h : ∀ d ∈ opened, InGrid d.cell.x d.cell.y) :
    ∀ d ∈ opening m goal e opened closed, InGrid d.cell.x d.cell.y := by
  intro d hd
  rcases mem_offers hd with hd | ⟨n, hn, rfl, -⟩
  · exact h d hd
  · obtain ⟨o, ho, -, rfl⟩ := mem_neighborEntries.mp hn
    obtain ⟨hi, hi', hj, hj'⟩ := mem_offsets.mp ho
    unfold Inner Entry.cell Node.cell at he
    simp only at he
    show InGrid (e.node.x + o.1) (e.node.y + o.2)
    unfold InGrid
    omega

theorem Search.OnMap.next {s' : Search R} (h : s.OnMap (e :: opened) closed)
    (hinner : Inner e.cell)
    (hholds : s'.Holds (opening m goal e opened closed) (closing goal e closed)) :
    s'.OnMap (opening m goal e opened closed) (closing goal e closed) := by
  refine ⟨hholds, h.separate.next, ?_⟩
  intro d hd
  rcases List.mem_append.mp hd with hd | hd
  · exact opening_inGrid hinner (fun d hd => h.inGrid d (by simp [hd])) d hd
  · rcases mem_insertEntry.mp hd with rfl | hd
    · exact h.inGrid e (by simp)
    · exact h.inGrid d (by simp [hd])

theorem Search.OnMap.stops (h : s.OnMap opened closed) (hstop : ¬ s.Passes m goal) :
    ∃ fault, searchTurn m.get goal s = .error fault := by
  unfold Search.Passes at hstop
  rw [h.holds.openSet.entries, h.holds.closedSet.entries] at hstop
  cases opened with
  | nil => exact absurd trivial hstop
  | cons e opened =>
    have hgoal : e.cell ≠ goal := fun hcell => hstop (Or.inl hcell)
    by_cases hinner : Inner e.cell
    · have hstrands : StrandsOn m goal e opened closed :=
        not_not.mp fun hone => hstop (Or.inr ⟨hinner, hone⟩)
      exact ⟨_, (searchTurn_next h.holds hgoal hinner.readsAround).1 hstrands⟩
    · have hin : InGrid e.node.x e.node.y := h.inGrid e (by simp)
      obtain ⟨lc, lo, -, -, hturn⟩ := searchTurn_closes m.get h.holds hgoal
      refine ⟨.outOfRange, ?_⟩
      rw [hturn, genNeighbors_outside hin hinner]
      rfl

/-- The place of a cell in the array. -/
def PointI.index (c : PointI) : Nat := c.x.toNat * gridNum + c.y.toNat

theorem PointI.index_lt {c : PointI} (h : InGrid c.x c.y) : c.index < gridNum * gridNum := by
  unfold PointI.index
  unfold InGrid gridNum at *
  omega

end

/-! ## Whole searches -/

/-- The states of the sets before the passes of a search. -/
def Reached (obs : Obstacles) (goal : PointI) : Search R → Search R → Prop :=
  ReflTransGen fun s s' => searchTurn obs goal s = .ok (.next s')

section

variable {m : Grid Bool} {goal : PointI}

end

/-! ## The search of `command` -/

section

variable {m : Grid Bool} {pose goal : PointI} {s₀ : Search R}

end

end Pint
