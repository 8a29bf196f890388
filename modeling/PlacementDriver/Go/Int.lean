import Mathlib

/-!
# Go's `int` on a 64-bit platform

Go's `int` is 64 bits wide on the platforms PD runs on, and its arithmetic
wraps around modulo `2 ^ 64`: it is Lean's `Int64`, whose `toInt` reads a
value as a mathematical integer. The lemmas here say when a subtraction does
not wrap, which is when the mathematical difference lies in
`[-2 ^ 63, 2 ^ 63)`.

A float converted to `int` is truncated toward zero. Out of range the Go
specification leaves the result to the implementation; on amd64 the
conversion instruction `CVTTSD2SI` gives `math.MinInt64`, and `truncToInt64`
is that conversion of a float holding an integer.

## Main results

* `toInt_sub_of_mem`, `wrap64_of_inInt64`: arithmetic whose result is in
  range is exact; `wrap64_of_high`: one past it wraps once.
* `sub_nonneg_iff`, `sub_one_nonneg_iff`: with the difference in range, the
  sign of `a - b` and of `a - b - 1` compares `a` with `b`.
* `neg_truncToInt64_neg`: a positive integer converted and negated is
  negative, in range or not.
-/

namespace PlacementDriver.Go.Int

/-- `int(f)` on amd64, for a float `f` holding the integer `x`. -/
def truncToInt64 (x : Int) : Int64 :=
  if -(2 ^ 63) ≤ x ∧ x < 2 ^ 63 then Int64.ofInt x else Int64.minValue

/-- `x` is a value of `int64`. -/
def InInt64 (x : Int) : Prop := -(2 ^ 63) ≤ x ∧ x < 2 ^ 63

instance (x : Int) : Decidable (InInt64 x) := inferInstanceAs (Decidable (_ ∧ _))

/-- `int64` addition or subtraction: the mathematical result wrapped into
`[-2 ^ 63, 2 ^ 63)`, as `Int64`'s arithmetic gives it. -/
def wrap64 (x : Int) : Int := x.bmod (2 ^ 64)

/-- An integer in `[-2 ^ 63, 2 ^ 63)` is its own residue modulo `2 ^ 64`. -/
theorem bmod_of_mem {x : Int} (h₁ : -(2 ^ 63) ≤ x) (h₂ : x < 2 ^ 63) : x.bmod (2 ^ 64) = x :=
  Int.bmod_eq_of_le (by norm_num; omega) (by norm_num; omega)

/-- A result in range does not wrap. -/
theorem wrap64_of_inInt64 {x : Int} (h : InInt64 x) : wrap64 x = x := bmod_of_mem h.1 h.2

/-- A result in `[2 ^ 63, 2 ^ 64)` wraps once, below zero. -/
theorem wrap64_of_high {x : Int} (h₁ : 2 ^ 63 ≤ x) (h₂ : x < 2 ^ 64) : wrap64 x = x - 2 ^ 64 := by
  unfold wrap64
  have hm : ((2 ^ 64 : Nat) : Int) = 2 ^ 64 := by norm_num
  rw [Int.bmod_def, hm, Int.emod_eq_of_lt (by omega) (by omega), if_neg (by omega)]

/-- A float holding an integer in range converts to that integer. -/
theorem toInt_truncToInt64_of_inInt64 {x : Int} (h : InInt64 x) : (truncToInt64 x).toInt = x := by
  unfold truncToInt64
  rw [if_pos (show -(2 ^ 63) ≤ x ∧ x < 2 ^ 63 from h), Int64.toInt_ofInt]
  have hsize : (Int64.size : Nat) = 2 ^ 64 := rfl
  rw [hsize, bmod_of_mem h.1 h.2]

theorem toInt_sub_of_mem {a b : Int64} (h₁ : -(2 ^ 63) ≤ a.toInt - b.toInt) (h₂ : a.toInt - b.toInt < 2 ^ 63) :
    (a - b).toInt = a.toInt - b.toInt := by
  rw [Int64.toInt_sub, bmod_of_mem h₁ h₂]

theorem sub_eq_zero_iff {a b : Int64} : a - b = 0 ↔ a = b := by
  rw [Int64.sub_eq_iff_eq_add, Int64.zero_add]

/-- With the difference in range, `a - b` is not negative exactly when
`b ≤ a`. -/
theorem sub_nonneg_iff {a b : Int64} (h : (a.toInt - b.toInt).natAbs < 2 ^ 63) : 0 ≤ a - b ↔ b ≤ a := by
  rw [Int64.le_iff_toInt_le, Int64.le_iff_toInt_le, toInt_sub_of_mem (by omega) (by omega)]
  simp only [Int64.toInt_zero]
  omega

/-- With the difference in range, `a - b - 1` is not negative exactly when
`b < a`. -/
theorem sub_one_nonneg_iff {a b : Int64} (h : (a.toInt - b.toInt).natAbs < 2 ^ 63) : 0 ≤ a - b - 1 ↔ b < a := by
  have hab : (a - b).toInt = a.toInt - b.toInt := toInt_sub_of_mem (by omega) (by omega)
  have hsub : (a - b - 1).toInt = a.toInt - b.toInt - 1 := by
    rw [toInt_sub_of_mem (by rw [hab, Int64.toInt_one]; omega) (by rw [hab, Int64.toInt_one]; omega), hab,
      Int64.toInt_one]
  rw [Int64.le_iff_toInt_le, Int64.lt_iff_toInt_lt, hsub]
  simp only [Int64.toInt_zero]
  omega

/-- A positive integer, converted to `int` and negated, is negative: in range
it is its own negation, and out of range it is `math.MinInt64`, which
negation leaves alone. -/
theorem neg_truncToInt64_neg {x : Int} (hx : 0 < x) : -truncToInt64 x < 0 := by
  unfold truncToInt64
  split
  · next hmem =>
    rw [Int64.lt_iff_toInt_lt, Int64.toInt_neg, Int64.toInt_ofInt, Int64.toInt_zero]
    have hsize : (Int64.size : Nat) = 2 ^ 64 := rfl
    rw [hsize, bmod_of_mem hmem.1 hmem.2, bmod_of_mem (by omega) (by omega)]
    omega
  · decide

end PlacementDriver.Go.Int
