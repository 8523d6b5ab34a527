import Pint.Program.TasTime

/-!
# Elapsed cycles, on ARM

Two timestamps that are less than a turn of the counter apart determine the cycles between
them. `diff_time` finds them where the counter did not pass its end in between. Where it did,
what it adds is the greatest value of the counter and not the number of its values, so one tick
is missing; and where both readings are the same, it takes that for a whole turn.

A timestamp is the counter times 64, in 64 bits. So the 32 bits of the counter fit with room to
spare and no product wraps: `diffCycles_timestamps` has the two branches as arithmetic in the
natural numbers, and the rest is a comparison of these with the ticks that have elapsed.
-/

namespace Pint

namespace Arm

/-- The counter can be read, and it counts. -/
structure Pmu.Counting (pmu : Pmu) : Prop where
  pmuseren : pmu.pmuseren &&& 1 ≠ 0
  pmcntenset : pmu.pmcntenset &&& 0x80000000 ≠ 0

/-- The counter is read when it has made `ticks` ticks. -/
structure Pmu.At (pmu : Pmu) (ticks : Nat) : Prop extends pmu.Counting where
  pmccntr : pmu.pmccntr = UInt32.ofNat ticks

variable {p₀ p₁ : Pmu} {t t₀ t₁ : Nat}

theorem Pmu.At.timestamp (h : p₀.At t) :
    (generateTimestamp p₀).toNat = 64 * (t % 2 ^ 32) := by
  unfold generateTimestamp
  rw [if_pos h.pmuseren, if_pos h.pmcntenset, h.pmccntr, UInt64.toNat_mul,
    UInt32.toNat_toUInt64, UInt32.toNat_ofNat']
  have hlt := Nat.mod_lt t (show 0 < 2 ^ 32 by decide)
  show _ * 64 % 2 ^ 64 = _
  omega

/-- Without the counter a timestamp is 0. -/
theorem generateTimestamp_off (h : ¬ p₀.Counting) : generateTimestamp p₀ = 0 := by
  unfold generateTimestamp
  split
  · rename_i hread
    rw [if_neg fun hset => h ⟨hread, hset⟩]
  · rfl

/-- One comparison separates the cases, and of two equal numbers it takes the second one to be
from the next turn. -/
theorem diffCycles_toNat {a b : Nat} {last current : Timestamp} (hlast : last.toNat = 64 * a)
    (hcurrent : current.toNat = 64 * b) (ha : a < 2 ^ 32) :
    (diffCycles current last).toNat
      = if a < b then 64 * (b - a) else 64 * (2 ^ 32 - 1 - a + b) := by
  have hcmp : current > last ↔ a < b := by
    rw [gt_iff_lt, UInt64.lt_iff_toNat_lt, hlast, hcurrent]
    omega
  unfold diffCycles
  by_cases h : a < b
  · have hle : last ≤ current := UInt64.le_iff_toNat_le.mpr (by omega)
    rw [if_pos (hcmp.mpr h), if_pos h, UInt64.toNat_sub_of_le _ _ hle]
    omega
  · have hturn : (uintMax.toUInt64 * 64).toNat = 64 * (2 ^ 32 - 1) := by decide
    have hle : last ≤ uintMax.toUInt64 * 64 := UInt64.le_iff_toNat_le.mpr (by omega)
    rw [if_neg fun hc => h (hcmp.mp hc), if_neg h, UInt64.toNat_add,
      UInt64.toNat_sub_of_le _ _ hle]
    omega

/-- The elapsed ticks, from what is left of them in the counter. -/
theorem elapsed_eq (hle : t₀ ≤ t₁) (hlt : t₁ < t₀ + 2 ^ 32) :
    t₁ - t₀ = if t₀ % 2 ^ 32 ≤ t₁ % 2 ^ 32 then t₁ % 2 ^ 32 - t₀ % 2 ^ 32
      else 2 ^ 32 - t₀ % 2 ^ 32 + t₁ % 2 ^ 32 := by
  split
  · omega
  · omega

/-- **What `diff_time` makes of two readings.** -/
theorem diffCycles_timestamps (h₀ : p₀.At t₀) (h₁ : p₁.At t₁) :
    (diffCycles (generateTimestamp p₁) (generateTimestamp p₀)).toNat
      = if t₀ % 2 ^ 32 < t₁ % 2 ^ 32 then 64 * (t₁ % 2 ^ 32 - t₀ % 2 ^ 32)
        else 64 * (2 ^ 32 - 1 - t₀ % 2 ^ 32 + t₁ % 2 ^ 32) :=
  diffCycles_toNat h₀.timestamp h₁.timestamp (Nat.mod_lt _ (by decide))

/-- Where the counter cannot be read, all but one tick of a turn have always elapsed. -/
theorem diffCycles_off (h₀ : ¬ p₀.Counting) (h₁ : ¬ p₁.Counting) :
    (diffCycles (generateTimestamp p₁) (generateTimestamp p₀)).toNat = 64 * (2 ^ 32 - 1) := by
  rw [generateTimestamp_off h₀, generateTimestamp_off h₁]
  exact diffCycles_toNat (a := 0) (b := 0) rfl rfl (by decide)

/-- **The elapsed time is right exactly if the counter shows more than before.** If it shows less,
it has passed its end and one tick is lost; if it shows the same, no time has passed, and a whole
turn less one tick is reported. -/
theorem diffCycles_elapsed_iff (hle : t₀ ≤ t₁) (hlt : t₁ < t₀ + 2 ^ 32) (h₀ : p₀.At t₀)
    (h₁ : p₁.At t₁) :
    (diffCycles (generateTimestamp p₁) (generateTimestamp p₀)).toNat = 64 * (t₁ - t₀) ↔
      t₀ % 2 ^ 32 < t₁ % 2 ^ 32 := by
  rw [diffCycles_timestamps h₀ h₁, elapsed_eq hle hlt]
  have hb := Nat.mod_lt t₀ (show 0 < 2 ^ 32 by decide)
  split
  · rename_i h
    rw [if_pos (Nat.le_of_lt h)]
    exact iff_of_true rfl h
  · rename_i h
    refine iff_of_false ?_ h
    split
    · omega
    · omega

/-- The counter after so many ticks. -/
def pmuAt (ticks : Nat) : Pmu := ⟨1, 0x80000000, UInt32.ofNat ticks⟩

theorem pmuAt_at (ticks : Nat) : (pmuAt ticks).At ticks where
  pmuseren := show (1 : UInt32) &&& 1 ≠ 0 by decide
  pmcntenset := show (0x80000000 : UInt32) &&& 0x80000000 ≠ 0 by decide
  pmccntr := rfl

theorem diffCycles_elapsed_iff_tick :
    (1000 ≤ 1001 ∧ 1001 < 1000 + 2 ^ 32) ∧
      ((diffCycles (generateTimestamp (pmuAt 1001)) (generateTimestamp (pmuAt 1000))).toNat
          = 64 * (1001 - 1000) ↔ 1000 % 2 ^ 32 < 1001 % 2 ^ 32) :=
  ⟨by decide, diffCycles_elapsed_iff (by decide) (by decide) (pmuAt_at 1000) (pmuAt_at 1001)⟩

/-- Two readings within one tick, and two on the two sides of the end of the counter. -/
theorem elapsed_wrong :
    ¬ (diffCycles (generateTimestamp (pmuAt 1000)) (generateTimestamp (pmuAt 1000))).toNat
        = 64 * (1000 - 1000) ∧
      ¬ (diffCycles (generateTimestamp (pmuAt 4294967296))
          (generateTimestamp (pmuAt 4294967295))).toNat = 64 * (4294967296 - 4294967295) := by
  decide

end Arm

end Pint
