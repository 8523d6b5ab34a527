import Mathlib.Algebra.Order.Floor.Ring
import Mathlib.Tactic.Linarith

/-!
# Rounding toward zero

A conversion to an integer that drops the fraction. From 0 on it is the floor, below it is the
ceiling, so the integer 0 stands for twice as much as any other: what lies between -1 and 0 gets
it too (`trunc_inRange_iff`).
-/

namespace Truncation

variable {K : Type*} [Field K] [LinearOrder K] [IsStrictOrderedRing K] [FloorRing K] {x : K} {n : ℤ}

def trunc (x : K) : ℤ := if 0 ≤ x then ⌊x⌋ else ⌈x⌉

omit [IsStrictOrderedRing K] in
theorem trunc_of_nonneg (h : 0 ≤ x) : trunc x = ⌊x⌋ := if_pos h

omit [IsStrictOrderedRing K] in
theorem trunc_of_neg (h : x < 0) : trunc x = ⌈x⌉ := if_neg (not_le.mpr h)

/-- From -1 on, rounding toward zero is the floor, but not below 0. -/
theorem trunc_eq_max (h : -1 < x) : trunc x = max 0 ⌊x⌋ := by
  rcases le_or_gt 0 x with hx | hx
  · rw [trunc_of_nonneg hx, max_eq_right (Int.floor_nonneg.mpr hx)]
  · have hceil : ⌈x⌉ = 0 := by
      rw [Int.ceil_eq_iff]
      constructor
      · push_cast
        linarith
      · push_cast
        exact hx.le
    have hfloor : ⌊x⌋ ≤ 0 := Int.floor_nonpos hx.le
    rw [trunc_of_neg hx, hceil, max_eq_left hfloor]

theorem trunc_neg (h : x ≤ -1) : trunc x < 0 := by
  have hceil : ⌈x⌉ ≤ -1 := Int.ceil_le.mpr (by push_cast; exact h)
  rw [trunc_of_neg (by linarith)]
  omega

/-- **What gets an index below `n`**: more than there are cells of. -/
theorem trunc_inRange_iff (hn : 0 < n) : (0 ≤ trunc x ∧ trunc x < n) ↔ -1 < x ∧ x < n := by
  rcases le_or_gt x (-1) with hx | hx
  · have hneg := trunc_neg hx
    refine iff_of_false (fun hc => absurd hc.1 (by omega)) fun hc => ?_
    exact absurd hc.1 (not_lt.mpr hx)
  · rw [trunc_eq_max hx, max_lt_iff, Int.floor_lt]
    exact ⟨fun h => ⟨hx, h.2.2⟩, fun h => ⟨le_max_left 0 _, hn, h.2⟩⟩

end Truncation
