import Pint.Program.Mapping
import Mathlib.Analysis.SpecialFunctions.Complex.Arg
import Mathlib.Analysis.SpecialFunctions.Pow.Real

/-!
# Exact arithmetic

The real numbers as the doubles of the controllers, for the results that are about the
arithmetic of the code and not about its rounding.
-/

namespace Pint

noncomputable instance : Double ℝ where
  decLt := inferInstance
  decLe := inferInstance
  toInt x := if 0 ≤ x then ⌊x⌋ else ⌈x⌉
  sqrt := Real.sqrt
  sin := Real.sin
  cos := Real.cos
  fabs x := |x|
  atan2 y x := Complex.arg ⟨x, y⟩
  pow x y := x ^ y
  pi := Real.pi

/-- `(int)x` of an integer. -/
theorem toInt_intCast (n : Int) : Double.toInt ((n : Int) : ℝ) = n := by
  show (if (0 : ℝ) ≤ n then ⌊(n : ℝ)⌋ else ⌈(n : ℝ)⌉) = n
  split
  · exact Int.floor_intCast n
  · exact Int.ceil_intCast n

/-- The side of a cell is a fifth. -/
theorem interval_real : (interval : ℝ) = 1 / 5 := by
  unfold interval mapSize gridNum
  norm_num

end Pint
