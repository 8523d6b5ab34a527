import Mathlib.Order.Lattice
import Mathlib.Tactic.Common

/-!
# The two largest of a sequence in one pass

A pass over `g 0, …, g (n - 1)` keeps the position of the largest value and a second position.
A new largest value moves the first position and leaves the second one where it is; any other
value competes with the second. So the second position only ever gets the values that did not
lead when their turn came, and a leader that is overtaken is forgotten.

`second_iff` says when the pass has the two largest all the same.
-/

namespace TopTwo

variable {α : Type} [LinearOrder α]

/-- One turn: the position of the largest value so far, and the second position. -/
def step (g : Nat → α) (acc : Nat × Nat) (i : Nat) : Nat × Nat :=
  if g i > g acc.1 then (i, acc.2)
  else if g i > g acc.2 then if i ≠ acc.1 then (acc.1, i) else acc
  else acc

/-- The pass, which starts with the positions 0 and 1. -/
def pass (g : Nat → α) (n : Nat) : Nat × Nat := (List.range n).foldl (step g) (0, 1)

/-- The value at this position is larger than all before it. -/
def Leads (g : Nat → α) (i : Nat) : Prop := ∀ j < i, g j < g i

/-- What the positions are after the first `n` values. -/
structure Holds (g : Nat → α) (n : Nat) (acc : Nat × Nat) : Prop where
  first_le : acc.1 < n ∨ acc.1 = 0
  first : ∀ j < n, g j ≤ g acc.1
  leads : Leads g acc.1
  second : acc.2 = 1 ∨ (acc.2 < n ∧ ¬ Leads g acc.2 ∧ g 1 < g acc.2)
  rest : ∀ j < n, ¬ Leads g j → g j ≤ g acc.2

variable {g : Nat → α} {n : Nat} {acc : Nat × Nat}

theorem Holds.second_ge (h : Holds g n acc) : g 1 ≤ g acc.2 := by
  rcases h.second with hone | ⟨-, -, hlt⟩
  · rw [hone]
  · exact le_of_lt hlt

/-- A new largest value. -/
theorem Holds.overtaken (h : Holds g n acc) (hn : g acc.1 < g n) : Holds g (n + 1) (n, acc.2) := by
  have hleads : Leads g n := fun j hj => lt_of_le_of_lt (h.first j hj) hn
  refine ⟨Or.inl (Nat.lt_succ_self n), ?_, hleads, ?_, ?_⟩
  · intro j hj
    rcases Nat.lt_succ_iff_lt_or_eq.mp hj with hlt | rfl
    · exact le_of_lt (hleads j hlt)
    · exact le_refl _
  · exact h.second.imp_right fun hsecond => ⟨Nat.lt_succ_of_lt hsecond.1, hsecond.2⟩
  · intro j hj hnot
    rcases Nat.lt_succ_iff_lt_or_eq.mp hj with hlt | rfl
    · exact h.rest j hlt hnot
    · exact absurd hleads hnot

/-- Any other value. -/
theorem Holds.follows (h : Holds g n acc) (hn : ¬ g acc.1 < g n) :
    Holds g (n + 1) (if g n > g acc.2 then if n ≠ acc.1 then (acc.1, n) else acc else acc) := by
  have hfirst : ∀ j < n + 1, g j ≤ g acc.1 := by
    intro j hj
    rcases Nat.lt_succ_iff_lt_or_eq.mp hj with hlt | rfl
    · exact h.first j hlt
    · exact not_lt.mp hn
  have hle : acc.1 < n + 1 ∨ acc.1 = 0 := h.first_le.imp_left Nat.lt_succ_of_lt
  have hsecond := h.second.imp_right fun hs => (⟨Nat.lt_succ_of_lt hs.1, hs.2⟩ :
    acc.2 < n + 1 ∧ ¬ Leads g acc.2 ∧ g 1 < g acc.2)
  split
  · rename_i hlarger
    split
    · rename_i hne
      -- A value that is no larger than the first one does not lead.
      have hnot : ¬ Leads g n := by
        intro hleads
        refine hn (hleads acc.1 ?_)
        omega
      refine ⟨hle, hfirst, h.leads, Or.inr ⟨Nat.lt_succ_self n, hnot, ?_⟩, ?_⟩
      · exact lt_of_le_of_lt h.second_ge hlarger
      · intro j hj hj'
        rcases Nat.lt_succ_iff_lt_or_eq.mp hj with hlt | rfl
        · exact le_of_lt (lt_of_le_of_lt (h.rest j hlt hj') hlarger)
        · exact le_refl _
    · rename_i heq
      refine ⟨hle, hfirst, h.leads, hsecond, ?_⟩
      intro j hj hj'
      rcases Nat.lt_succ_iff_lt_or_eq.mp hj with hlt | rfl
      · exact h.rest j hlt hj'
      · rw [not_not.mp heq] at hj'
        exact absurd h.leads hj'
  · rename_i hsmaller
    refine ⟨hle, hfirst, h.leads, hsecond, ?_⟩
    intro j hj hj'
    rcases Nat.lt_succ_iff_lt_or_eq.mp hj with hlt | rfl
    · exact h.rest j hlt hj'
    · exact not_lt.mp hsmaller

/-- **The pass**, by induction on the values it has seen. -/
theorem holds_pass (g : Nat → α) (n : Nat) : Holds g n (pass g n) := by
  induction n with
  | zero =>
    refine ⟨Or.inr rfl, ?_, ?_, Or.inl rfl, ?_⟩
    · intro j hj
      exact absurd hj (Nat.not_lt_zero j)
    · intro j hj
      exact absurd hj (Nat.not_lt_zero j)
    · intro j hj
      exact absurd hj (Nat.not_lt_zero j)
  | succ n ih =>
    have hstep : pass g (n + 1) = step g (pass g n) n := by
      unfold pass
      rw [List.range_succ, List.foldl_append, List.foldl_cons, List.foldl_nil]
    rw [hstep]
    unfold step
    split
    · rename_i hn
      exact ih.overtaken hn
    · rename_i hn
      exact ih.follows hn

theorem pass_first_lt (h : 0 < n) : (pass g n).1 < n := by
  rcases (holds_pass g n).first_le with hlt | h0
  · exact hlt
  · omega

/-- The two positions meet at 1, and nowhere else. -/
theorem pass_meet_iff : (pass g n).1 = (pass g n).2 ↔ (pass g n).1 = 1 := by
  have hp := holds_pass g n
  constructor
  · intro heq
    rcases hp.second with hone | ⟨-, hnot, -⟩
    · rw [heq, hone]
    · rw [← heq] at hnot
      exact absurd hp.leads hnot
  · intro hone
    rcases hp.second with htwo | ⟨hlt, -, hlarger⟩
    · rw [hone, htwo]
    · have := hp.first _ hlt
      rw [hone] at this
      exact absurd hlarger (not_lt.mpr this)

/-- **The second position has the second largest value** exactly if the largest is not at 1, and
the second largest is at 1 or at a position that did not lead. -/
theorem second_iff (h : 1 < n) :
    ((pass g n).2 ≠ (pass g n).1 ∧ ∀ i < n, i ≠ (pass g n).1 → g i ≤ g (pass g n).2) ↔
      (pass g n).1 ≠ 1 ∧ ∃ i < n, i ≠ (pass g n).1 ∧
        (∀ j < n, j ≠ (pass g n).1 → g j ≤ g i) ∧ (i = 1 ∨ ¬ Leads g i) := by
  have hp := holds_pass g n
  have hmeet := @pass_meet_iff _ _ g n
  constructor
  · rintro ⟨hne, hrest⟩
    refine ⟨fun hone => hne (hmeet.mpr hone).symm, (pass g n).2, ?_, hne, hrest, ?_⟩
    · rcases hp.second with hone | hlt
      · omega
      · exact hlt.1
    · exact hp.second.imp_right fun hs => hs.2.1
  · rintro ⟨hone, i, hi, -, hbest, hwhere⟩
    refine ⟨fun heq => hone (hmeet.mp heq.symm), ?_⟩
    intro j hj hne
    refine le_trans (hbest j hj hne) ?_
    rcases hwhere with rfl | hnot
    · exact hp.second_ge
    · exact hp.rest i hi hnot

/-- Whatever position has the largest value and leads is the first one. -/
theorem eq_first {m : Nat} (hm : m < n) (hmax : ∀ j < n, g j ≤ g m) (hleads : Leads g m) :
    m = (pass g n).1 := by
  have hp := holds_pass g n
  rcases Nat.lt_trichotomy m (pass g n).1 with hlt | heq | hgt
  · have := hp.leads m hlt
    exact absurd (hmax _ (pass_first_lt (by omega))) (not_le.mpr this)
  · exact heq
  · exact absurd (hp.first m hm) (not_le.mpr (hleads _ hgt))

end TopTwo
