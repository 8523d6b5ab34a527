import Mathlib.Algebra.Order.Ring.Unbundled.Rat
import Pint.Lib.Wp

/-!
# The C that the controllers are written in

The controllers compute with doubles and keep their data in arrays and linked lists.
`Double` is what they use of `double` and `<math.h>`: the code is written over any type
with these operations, so a theorem about it holds for machine doubles and for exact
arithmetic alike, unless it says which. Arrays check their index, and an index outside
is the fault `outOfRange`; so "every access is in range" is the theorem that there is no
such fault.
-/

namespace Pint

/-- Why a controller does not go on: an access outside an array, a null pointer that is
followed, a variable that is read before anything was stored in it, or an endless loop. -/
inductive Fault where
  | outOfRange
  | nullPointer
  | uninitialised
  | hung
deriving DecidableEq, Repr

/-! ## Integers -/

/-- The numbers of a C `int`. -/
def IsInt (x : Int) : Prop := -2147483648 ≤ x ∧ x < 2147483648

/-- The `int` that the low 32 bits of `x` are. -/
def wrapInt (x : Int) : Int :=
  if x % 4294967296 < 2147483648 then x % 4294967296 else x % 4294967296 - 4294967296

theorem IsInt.wrapInt {x : Int} (h : IsInt x) : wrapInt x = x := by
  unfold IsInt at h
  unfold Pint.wrapInt
  split <;> omega

/-- The `long` that `strtol` gives for the number `x`: where there is none, the nearest. -/
def clampLong (x : Int) : Int := max (-9223372036854775808) (min x 9223372036854775807)

theorem IsInt.clampLong {x : Int} (h : IsInt x) : clampLong x = x := by
  unfold IsInt at h
  unfold Pint.clampLong
  omega

/-! ## Doubles -/

/-- The operations of `double` and `<math.h>`. -/
class Double (R : Type) extends Add R, Sub R, Mul R, Div R, Neg R, LT R, LE R, IntCast R,
    OfScientific R where
  decLt : DecidableRel (α := R) (· < ·)
  decLe : DecidableRel (α := R) (· ≤ ·)
  /-- `(int)x` -/
  toInt : R → Int
  sqrt : R → R
  sin : R → R
  cos : R → R
  fabs : R → R
  atan2 : R → R → R
  pow : R → R → R
  /-- `M_PI` -/
  pi : R

instance decidableLt {R : Type} [Double R] : DecidableRel (α := R) (· < ·) := Double.decLt
instance decidableLe {R : Type} [Double R] : DecidableRel (α := R) (· ≤ ·) := Double.decLe

/-! ## Arrays -/

/-- An array of `size` cells. -/
structure CArray (α : Type) where
  size : Nat
  cells : Int → α

/-- An array with the same value in every cell. -/
def CArray.filled {α : Type} (size : Nat) (a : α) : CArray α := ⟨size, fun _ => a⟩

def CArray.get {α : Type} (a : CArray α) (i : Int) : Except Fault α :=
  if 0 ≤ i ∧ i < a.size then .ok (a.cells i) else .error .outOfRange

def CArray.set {α : Type} (a : CArray α) (i : Int) (x : α) : Except Fault (CArray α) :=
  if 0 ≤ i ∧ i < a.size then .ok { a with cells := fun j => if j = i then x else a.cells j }
  else .error .outOfRange

theorem CArray.set_eq {α : Type} {a : CArray α} {i : Int} (h0 : 0 ≤ i) (h : i < a.size) (x : α) :
    a.set i x = .ok { a with cells := fun j => if j = i then x else a.cells j } := if_pos ⟨h0, h⟩

theorem CArray.set_ok {α : Type} {a : CArray α} {i : Int} (h0 : 0 ≤ i) (h : i < a.size) (x : α) :
    ∃ a' : CArray α, a.set i x = .ok a' ∧ a'.size = a.size := ⟨_, if_pos ⟨h0, h⟩, rfl⟩

theorem CArray.set_outside {α : Type} {a : CArray α} {i : Int} (h : (a.size : Int) ≤ i) (x : α) :
    a.set i x = .error .outOfRange := if_neg fun hc => absurd hc.2 (Int.not_lt.mpr h)

theorem CArray.get_ok {α : Type} {a : CArray α} {i : Int} (h0 : 0 ≤ i) (h : i < a.size) :
    a.get i = .ok (a.cells i) := if_pos ⟨h0, h⟩

/-! ## Calls -/

/-- The state after a call that answers nothing. -/
def execute {σ : Type} (x : Prog.Program σ Fault Unit) (s : σ) : Except Fault σ :=
  match x.run s with
  | .ok (_, s') => .ok s'
  | .error e => .error e

theorem ok_bind {ε α β : Type} (a : α) (f : α → Except ε β) : (Except.ok a >>= f) = f a := rfl

/-- A computation that went on after a call went on with what the call answered. -/
theorem bind_ok {α β : Type} {x : Except Fault α} {f : α → Except Fault β} {b : β}
    (h : (x >>= f) = .ok b) : ∃ a, x = .ok a ∧ f a = .ok b := by
  cases x with
  | ok a => exact ⟨a, rfl, h⟩
  | error e => cases h

/-! ## Input and output -/

/-- What `read` gave for one message of fixed size: all of it, or something else, with the
value `read` returned (fewer bytes, 0 or -1). -/
inductive Received (α : Type) where
  | whole (msg : α)
  | part (readRet : Int)

end Pint
