import Mathlib.Algebra.Group.Nat.Defs
import Pint.Program.Clib

/-!
# `tas_time.c` — timestamps, in the build for ARM

The performance counter of the processor counts every 64th cycle, in 32 bits. A timestamp is
that number times 64, in a type of 64 bits, so it wraps at `2 ^ 38` and not where the type does.
-/

namespace Pint

namespace Arm

/-- `UINT_MAX` -/
def uintMax : UInt32 := 4294967295

/-- `timestamp_t`, an `unsigned long long`. -/
abbrev Timestamp := UInt64

/-- What the three `mrc` instructions read. -/
structure Pmu where
  pmuseren : UInt32
  pmcntenset : UInt32
  pmccntr : UInt32

def generateTimestamp (pmu : Pmu) : Timestamp :=
  if pmu.pmuseren &&& 1 ≠ 0 then -- Allows reading perfmon counters for user mode code.
    if pmu.pmcntenset &&& 0x80000000 ≠ 0 then -- Is it counting?
      -- The counter is set up to count every 64th cycle
      pmu.pmccntr.toUInt64 * 64
    else 0
  else 0

/-- The number that `diff_time` divides by `cpu_mhz`. -/
def diffCycles (current last : Timestamp) : UInt64 :=
  if current > last then current - last
  else (uintMax.toUInt64 * 64 - last) + current

def diffTime {R : Type} [Double R] (current last : Timestamp) (cpuMhz : R) : R :=
  (((diffCycles current last).toNat : Int) : R) / cpuMhz

end Arm

end Pint
