import Mathlib

/-!
# Flags in the bits of a `uint32`

A Go flag set keeps each flag in one bit `2 ^ k` of a `uint32`: `|` adds
flags, `&^` takes them away and `mask & flag != 0` tests one. Read through
the mask's natural number, a test is one bit of it, and the three operations
become `||`, `&& !` and `false` on that bit.

## Main results

* `hasFlag_eq_testBit`: testing the flag `2 ^ k` reads bit `k` of the mask.
* `hasFlag_or`, `hasFlag_andNot`, `hasFlag_zero`: the test of a union, of a
  difference and of the empty set.
* `le_of_hasFlag`: a mask that holds a flag is at least the flag, so a loop
  over the flags that stops past the mask meets every flag the mask holds.
-/

namespace PlacementDriver.Verified.BitFlags

/-- `mask & flag != 0`. -/
def hasFlag (mask flag : UInt32) : Bool := mask &&& flag != 0

variable {flag : UInt32} {k : Nat}

theorem hasFlag_eq_testBit (hf : flag.toNat = 2 ^ k) (mask : UInt32) :
    hasFlag mask flag = mask.toNat.testBit k := by
  have hand : (mask &&& flag).toNat = (mask.toNat.testBit k).toNat * 2 ^ k := by
    rw [UInt32.toNat_and, hf, Nat.and_two_pow]
  unfold hasFlag
  cases hb : mask.toNat.testBit k
  · have hzero : mask &&& flag = 0 := UInt32.toNat_inj.mp (by rw [hand, hb]; simp)
    simp [hzero]
  · have hne : mask &&& flag ≠ 0 := fun h0 => by
      have h := congrArg UInt32.toNat h0
      rw [hand, hb] at h
      simp at h
    simpa using hne

theorem hasFlag_or (hf : flag.toNat = 2 ^ k) (a b : UInt32) :
    hasFlag (a ||| b) flag = (hasFlag a flag || hasFlag b flag) := by
  rw [hasFlag_eq_testBit hf, hasFlag_eq_testBit hf, hasFlag_eq_testBit hf, UInt32.toNat_or, Nat.testBit_or]

/-- `a &^ b` holds the flags of `a` that `b` lacks. -/
theorem hasFlag_andNot (hf : flag.toNat = 2 ^ k) (hk : k < 32) (a b : UInt32) :
    hasFlag (a &&& ~~~b) flag = (hasFlag a flag && !hasFlag b flag) := by
  have hnot : (~~~b).toNat = 2 ^ 32 - (b.toNat + 1) := by
    rw [UInt32.toNat_not, UInt32.size]
    omega
  rw [hasFlag_eq_testBit hf, hasFlag_eq_testBit hf, hasFlag_eq_testBit hf, UInt32.toNat_and, Nat.testBit_and,
    hnot, Nat.testBit_two_pow_sub_succ b.toNat_lt, decide_eq_true hk, Bool.true_and]

@[simp] theorem hasFlag_zero (flag : UInt32) : hasFlag 0 flag = false := by
  simp [hasFlag]

theorem le_of_hasFlag (hf : flag.toNat = 2 ^ k) {mask : UInt32} (h : hasFlag mask flag = true) : flag ≤ mask := by
  rw [hasFlag_eq_testBit hf] at h
  rw [UInt32.le_iff_toNat_le, hf]
  exact Nat.ge_two_pow_of_testBit h

end PlacementDriver.Verified.BitFlags
