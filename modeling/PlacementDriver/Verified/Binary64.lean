import Mathlib

/-!
# Integers rounded to binary64

An integer converted to a binary64 float becomes the float nearest to it,
ties to even. A binary64 significand has 53 bits, so an integer of at most 53
bits is exact, and a longer one keeps its top 53 bits, rounded at the bit
below them. The model is meant for integers below `2 ^ 1024`, where no
conversion overflows.

Multiplying such a float by a power of two `2 ^ -j` changes only its exponent,
and the conversion back to an integer truncates toward zero: `truncScale n j`
is the integer `n * 2 ^ -j` is computed as.

## Main results

* `roundInt_of_natAbs_lt`: an integer of at most 53 bits is exact.
* `roundInt_nonneg`, `roundInt_le_two_mul`: a non-negative integer rounds to
  a non-negative value at most twice as large.
* `roundInt_ne_zero`: no integer but zero rounds to zero.
* `truncScale_nonneg`, `truncScale_lt`: a positive integer scaled by
  `2 ^ -j`, `j ≥ 2`, and truncated is non-negative and smaller.
-/

namespace PlacementDriver.Verified.Binary64

/-- The bits a natural number loses in a 53-bit significand. -/
def droppedBits (m : Nat) : Nat := m.log2 + 1 - 53

/-- The multiple of `2 ^ k` nearest to `m`, ties to an even multiple. -/
def roundToMultiple (m k : Nat) : Nat :=
  let q := m / 2 ^ k
  let r := m % 2 ^ k
  -- up past half way, and at half way when `q` is odd
  if 2 * r > 2 ^ k ∨ (2 * r = 2 ^ k ∧ q % 2 = 1) then (q + 1) * 2 ^ k else q * 2 ^ k

/-- The value of the binary64 float nearest to `n`, ties to even. -/
def roundInt (n : Int) : Int := n.sign * (roundToMultiple n.natAbs (droppedBits n.natAbs) : Nat)

/-- The integer that `n` converted to binary64, scaled by `2 ^ -j` and
truncated toward zero, comes to. -/
def truncScale (n : Int) (j : Nat) : Int := (roundInt n).tdiv (2 ^ j)

theorem roundToMultiple_zero (m : Nat) : roundToMultiple m 0 = m := by
  simp [roundToMultiple, Nat.mod_one]

/-- Rounding to a multiple of `2 ^ k` adds at most `2 ^ k`. -/
theorem roundToMultiple_le (m k : Nat) : roundToMultiple m k ≤ m + 2 ^ k := by
  have hdiv : m / 2 ^ k * 2 ^ k ≤ m := Nat.div_mul_le_self m (2 ^ k)
  dsimp only [roundToMultiple]
  split_ifs
  · rw [Nat.add_mul, one_mul]
    omega
  · omega

/-- Rounding to a multiple of `2 ^ k` never goes below the multiple under `m`. -/
theorem le_roundToMultiple (m k : Nat) : m / 2 ^ k * 2 ^ k ≤ roundToMultiple m k := by
  dsimp only [roundToMultiple]
  split_ifs
  · rw [Nat.add_mul, one_mul]
    omega
  · exact le_rfl

/-- A number loses bits only when it has more than 53, so `2 ^ droppedBits m`
is then at most `m`. -/
theorem droppedBits_eq_zero_or (m : Nat) : droppedBits m = 0 ∨ 2 ^ droppedBits m ≤ m := by
  by_cases hk : droppedBits m = 0
  · exact .inl hk
  · right
    have hm : m ≠ 0 := fun h => hk (by simp [droppedBits, h])
    calc 2 ^ droppedBits m ≤ 2 ^ m.log2 := Nat.pow_le_pow_right (by decide) (by unfold droppedBits; omega)
      _ ≤ m := Nat.log2_self_le hm

theorem droppedBits_of_lt {m : Nat} (hm : m < 2 ^ 53) : droppedBits m = 0 := by
  by_cases h0 : m = 0
  · simp [droppedBits, h0]
  · have := (Nat.log2_lt h0).mpr hm
    unfold droppedBits
    omega

/-- An integer of at most 53 bits is a binary64 value. -/
theorem roundInt_of_natAbs_lt {n : Int} (h : n.natAbs < 2 ^ 53) : roundInt n = n := by
  rw [roundInt, droppedBits_of_lt h, roundToMultiple_zero, Int.sign_mul_natAbs]

/-- A positive number keeps its top bit, so it rounds to a positive one. -/
theorem roundToMultiple_pos {m : Nat} (hm : 0 < m) : 0 < roundToMultiple m (droppedBits m) := by
  rcases droppedBits_eq_zero_or m with hk | hk
  · rw [hk, roundToMultiple_zero]
    exact hm
  · have hq : 1 ≤ m / 2 ^ droppedBits m := (Nat.one_le_div_iff (by positivity)).mpr hk
    calc 0 < 1 * 2 ^ droppedBits m := by positivity
      _ ≤ m / 2 ^ droppedBits m * 2 ^ droppedBits m := Nat.mul_le_mul_right _ hq
      _ ≤ roundToMultiple m (droppedBits m) := le_roundToMultiple m (droppedBits m)

theorem roundInt_ne_zero {n : Int} (hn : n ≠ 0) : roundInt n ≠ 0 := by
  have hpos := roundToMultiple_pos (Int.natAbs_pos.mpr hn)
  rw [← Int.natAbs_ne_zero, roundInt, Int.natAbs_mul, Int.natAbs_sign_of_ne_zero hn, one_mul, Int.natAbs_natCast]
  omega

theorem roundInt_nonneg {n : Int} (h : 0 ≤ n) : 0 ≤ roundInt n := by
  unfold roundInt
  rcases h.lt_or_eq with hpos | rfl
  · rw [Int.sign_eq_one_of_pos hpos, one_mul]
    exact Int.natCast_nonneg _
  · simp

/-- A non-negative integer rounds to at most twice itself. -/
theorem roundInt_le_two_mul {n : Int} (h : 0 ≤ n) : roundInt n ≤ 2 * n := by
  have hround : roundToMultiple n.natAbs (droppedBits n.natAbs) ≤ 2 * n.natAbs := by
    rcases droppedBits_eq_zero_or n.natAbs with hk | hk
    · rw [hk, roundToMultiple_zero]
      omega
    · have := roundToMultiple_le n.natAbs (droppedBits n.natAbs)
      omega
  unfold roundInt
  rcases h.lt_or_eq with hpos | rfl
  · rw [Int.sign_eq_one_of_pos hpos, one_mul]
    have hn : (n.natAbs : Int) = n := Int.natAbs_of_nonneg h
    omega
  · simp

theorem truncScale_nonneg {n : Int} (h : 0 ≤ n) (j : Nat) : 0 ≤ truncScale n j :=
  Int.tdiv_nonneg (roundInt_nonneg h) (by positivity)

/-- Scaled by `2 ^ -j` with `j ≥ 2` and truncated, a positive integer gets
smaller: it is at most `2 * n / 4`. -/
theorem truncScale_lt {n : Int} (h : 0 < n) {j : Nat} (hj : 2 ≤ j) : truncScale n j < n := by
  have hround := roundInt_le_two_mul h.le
  have hpow : (4 : Int) ≤ 2 ^ j := by
    calc (4 : Int) = 2 ^ 2 := by norm_num
      _ ≤ 2 ^ j := pow_le_pow_right₀ (by norm_num) hj
  unfold truncScale
  rw [Int.tdiv_eq_ediv_of_nonneg (roundInt_nonneg h.le)]
  apply Int.ediv_lt_of_lt_mul (by positivity)
  calc roundInt n ≤ 2 * n := hround
    _ < n * 4 := by omega
    _ ≤ n * 2 ^ j := Int.mul_le_mul_of_nonneg_left hpow h.le

end PlacementDriver.Verified.Binary64
