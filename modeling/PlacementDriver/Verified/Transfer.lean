import Mathlib.Algebra.BigOperators.Group.Finset.Basic
import Mathlib.Algebra.Order.Field.Basic
import Mathlib.Tactic.FieldSimp
import Mathlib.Tactic.Linarith
import Mathlib.Tactic.Positivity
import Mathlib.Tactic.Ring

/-!
# Balancing by transfers lowers a potential

A balancer keeps loads on a set of places, each load read against the place's
weight, and moves load from one place to another only when, with an allowance
`d` counted as moved, the source still reads above the target. This file shows
that every such move of an amount `0 ≤ r ≤ d` lowers the potential
`∑ load² / weight` by at least `r² (1/wₐ + 1/w_b)`, so that no run of such
moves of positive amounts comes back to where it started.

The argument is the two-point one: moving `r` from `a` to `b` changes the
potential by `r² (1/wₐ + 1/w_b) - 2r (Lₐ/wₐ - L_b/w_b)`, and the guard says
the gap `Lₐ/wₐ - L_b/w_b` is above `d (1/wₐ + 1/w_b)`.

## Main results

* `sq_div_transfer_le`: the two-point inequality.
* `potential_transfer`: a transfer between two distinct places changes only
  their two terms of the potential.
* `potential_transfer_le`: a guarded transfer lowers the potential by at least
  `r² (1/wₐ + 1/w_b)`, strictly when `r` is positive.
-/

namespace PlacementDriver.Verified.Transfer

variable {κ : Type*} [DecidableEq κ]

/-- The weighted sum of squared loads over `keys`. -/
def potential (keys : Finset κ) (w : κ → ℚ) (load : κ → ℚ) : ℚ :=
  ∑ k ∈ keys, load k ^ 2 / w k

/-- The loads after `r` moves from `a` to `b`. -/
def transfer (load : κ → ℚ) (a b : κ) (r : ℚ) : κ → ℚ :=
  Function.update (Function.update load a (load a - r)) b (load b + r)

theorem transfer_apply_left {load : κ → ℚ} {a b : κ} (hab : a ≠ b) (r : ℚ) :
    transfer load a b r a = load a - r := by
  simp [transfer, Function.update_of_ne hab]

theorem transfer_apply_right (load : κ → ℚ) (a b : κ) (r : ℚ) : transfer load a b r b = load b + r := by
  simp [transfer]

theorem transfer_apply_of_ne {load : κ → ℚ} {a b k : κ} (ha : k ≠ a) (hb : k ≠ b) (r : ℚ) :
    transfer load a b r k = load k := by
  simp [transfer, Function.update_of_ne ha, Function.update_of_ne hb]

/-- The two-point inequality: a move of `0 ≤ r ≤ d` from a place still above
the other with `d` moved lowers the two terms by at least `r² (1/wₐ + 1/w_b)`. -/
theorem sq_div_transfer_le {wa wb la lb d r : ℚ} (hwa : 0 < wa) (hwb : 0 < wb) (hr : 0 ≤ r) (hrd : r ≤ d)
    (hguard : (lb + d) / wb < (la - d) / wa) :
    (la - r) ^ 2 / wa + (lb + r) ^ 2 / wb + r ^ 2 * (1 / wa + 1 / wb) ≤ la ^ 2 / wa + lb ^ 2 / wb := by
  -- the change, split into the guard's gap and the slack `d - r`
  have hsplit : (la - r) ^ 2 / wa + (lb + r) ^ 2 / wb + r ^ 2 * (1 / wa + 1 / wb) - (la ^ 2 / wa + lb ^ 2 / wb) =
      -(2 * r * ((la - d) / wa - (lb + d) / wb)) - 2 * r * (d - r) * (1 / wa + 1 / wb) := by
    field_simp
    ring
  have hgap : 0 ≤ 2 * r * ((la - d) / wa - (lb + d) / wb) := by
    have : 0 ≤ (la - d) / wa - (lb + d) / wb := (sub_pos.mpr hguard).le
    positivity
  have hslack : 0 ≤ 2 * r * (d - r) * (1 / wa + 1 / wb) := by
    have : 0 ≤ d - r := sub_nonneg.mpr hrd
    positivity
  linarith

/-- A transfer between two distinct places of `keys` changes the potential by
the change of their two terms. -/
theorem potential_transfer (keys : Finset κ) (w load : κ → ℚ) {a b : κ} (hab : a ≠ b) (ha : a ∈ keys)
    (hb : b ∈ keys) (r : ℚ) :
    potential keys w (transfer load a b r) + (load a ^ 2 / w a + load b ^ 2 / w b) =
      potential keys w load + ((load a - r) ^ 2 / w a + (load b + r) ^ 2 / w b) := by
  have hb' : b ∈ keys.erase a := Finset.mem_erase.mpr ⟨hab.symm, hb⟩
  -- split both sums at `a` and then at `b`; the rest is the same on both sides
  have hrest : ∑ k ∈ (keys.erase a).erase b, transfer load a b r k ^ 2 / w k =
      ∑ k ∈ (keys.erase a).erase b, load k ^ 2 / w k := by
    refine Finset.sum_congr rfl fun k hk => ?_
    obtain ⟨hkb, hk'⟩ := Finset.mem_erase.mp hk
    rw [transfer_apply_of_ne (Finset.ne_of_mem_erase hk') hkb]
  have hsplit : ∀ f : κ → ℚ, ∑ k ∈ keys, f k = f a + (f b + ∑ k ∈ (keys.erase a).erase b, f k) := by
    intro f
    rw [Finset.add_sum_erase _ f hb', Finset.add_sum_erase _ f ha]
  unfold potential
  rw [hsplit, hsplit fun k => load k ^ 2 / w k, hrest, transfer_apply_left hab, transfer_apply_right]
  ring

/-- A guarded transfer of `0 ≤ r ≤ d` lowers the potential by at least
`r² (1/wₐ + 1/w_b)`. -/
theorem potential_transfer_le {keys : Finset κ} {w load : κ → ℚ} {a b : κ} (hab : a ≠ b) (ha : a ∈ keys)
    (hb : b ∈ keys) (hwa : 0 < w a) (hwb : 0 < w b) {d r : ℚ} (hr : 0 ≤ r) (hrd : r ≤ d)
    (hguard : (load b + d) / w b < (load a - d) / w a) :
    potential keys w (transfer load a b r) + r ^ 2 * (1 / w a + 1 / w b) ≤ potential keys w load := by
  have h := potential_transfer keys w load hab ha hb r
  have hle := sq_div_transfer_le hwa hwb hr hrd hguard
  linarith

end PlacementDriver.Verified.Transfer
