import PlacementDriver.Verified.StrictWeakOrder

/-!
# `container/heap` on a slice

Go's `container/heap` keeps a min-heap in a `heap.Interface`: no element is
less than its parent, the parent of position `j > 0` being `(j - 1) / 2`.
`Push` appends an element and moves it up (`up`); `Pop` swaps the root with
the last element, moves the new root down over the other positions (`down`)
and removes the last element, the old root, which it returns. Both act
through `Less` and `Swap` only.

We keep the heap as an `Array` and its `Less` as a function `less`. For the
results about the order, `less` is a strict weak order, as `sort.Interface`
asks of `Less`, used through the lemmas of `Verified.StrictWeakOrder`.

The order `up` and `down` restore is said by `UpOrder` and `DownOrder`:
every parent and child off the moving element are in order, and the moving
element's children are not less than its parent. One swap keeps them
(`UpOrder.move`, `DownOrder.move`), and where the loop stops they give the
heap order (`UpOrder.finish`, `DownOrder.finish`).

## Main results

* `push_perm`, `pop_perm`: `Push` and `Pop` only move elements around.
* `isHeap_push`, `isHeap_pop`: they keep the heap order.
* `IsHeap.not_less_pop_fst`: `Pop` returns an element that no element of the
  heap is less than.
-/

namespace PlacementDriver.Go.ContainerHeap

open PlacementDriver.Verified.StrictWeakOrder

variable {α : Type*} (less : α → α → Bool)

/-- `up(h, j)`: the element at `j` moves up while it is less than its parent. -/
def up (h : Array α) (j : Nat) (hj : j < h.size) : Array α :=
  if hstop : (j - 1) / 2 = j ∨ less h[j] h[(j - 1) / 2] = false then h
  else up (h.swap ((j - 1) / 2) j) ((j - 1) / 2) (by rw [Array.size_swap]; omega)
termination_by j
decreasing_by have := (not_or.mp hstop).1; omega

/-- The child of `i` that `down` compares with, among the first `n`
positions: the right one when it is less than the left one. -/
def smallerChild (h : Array α) (i n : Nat) (hn : n ≤ h.size) : Nat :=
  if h2 : 2 * i + 1 + 1 < n then
    if less h[2 * i + 1 + 1] h[2 * i + 1] then 2 * i + 1 + 1 else 2 * i + 1
  else 2 * i + 1

theorem smallerChild_cases (h : Array α) (i n : Nat) (hn : n ≤ h.size) :
    smallerChild less h i n hn = 2 * i + 1 ∨
      smallerChild less h i n hn = 2 * i + 1 + 1 ∧ 2 * i + 1 + 1 < n := by
  unfold smallerChild
  split
  · next h2 =>
    split
    · exact .inr ⟨rfl, h2⟩
    · exact .inl rfl
  · exact .inl rfl

/-- `down(h, i, n)`: the element at `i` moves down among the first `n`
positions while its smaller child is less than it. -/
def down (h : Array α) (i n : Nat) (hn : n ≤ h.size) : Array α :=
  if hleaf : n ≤ 2 * i + 1 then h
  else
    have hj : smallerChild less h i n hn < n := by
      have := smallerChild_cases less h i n hn; omega
    if less h[smallerChild less h i n hn] h[i] then
      down (h.swap i (smallerChild less h i n hn)) (smallerChild less h i n hn) n
        (by rw [Array.size_swap]; exact hn)
    else h
termination_by n - i
decreasing_by have := smallerChild_cases less h i n hn; omega

@[simp] theorem size_up (h : Array α) (j : Nat) (hj : j < h.size) : (up less h j hj).size = h.size := by
  fun_induction up less h j hj with
  | case1 => rfl
  | case2 h j hj hstop ih => rw [ih, Array.size_swap]

@[simp] theorem size_down (h : Array α) (i n : Nat) (hn : n ≤ h.size) :
    (down less h i n hn).size = h.size := by
  fun_induction down less h i n hn with
  | case1 => rfl
  | case2 h i hn hleaf hj hless ih => rw [ih, Array.size_swap]
  | case3 => rfl

/-- `down` leaves the positions from `n` on as they are. -/
theorem getElem?_down_of_le (h : Array α) (i n : Nat) (hn : n ≤ h.size) {k : Nat} (hnk : n ≤ k) :
    (down less h i n hn)[k]? = h[k]? := by
  fun_induction down less h i n hn with
  | case1 => rfl
  | case2 h i hn hleaf hj hless ih =>
    have hj := smallerChild_cases less h i n hn
    rw [ih, Array.getElem?_swap, if_neg (by omega), if_neg (by omega)]
  | case3 => rfl

theorem up_perm (h : Array α) (j : Nat) (hj : j < h.size) : (up less h j hj).Perm h := by
  fun_induction up less h j hj with
  | case1 => exact .rfl
  | case2 h j hj hstop ih => exact ih.trans (Array.swap_perm _ _)

theorem down_perm (h : Array α) (i n : Nat) (hn : n ≤ h.size) : (down less h i n hn).Perm h := by
  fun_induction down less h i n hn with
  | case1 => exact .rfl
  | case2 h i hn hleaf hj hless ih => exact ih.trans (Array.swap_perm _ _)
  | case3 => exact .rfl

/-- `heap.Push(h, x)`: append `x` and move it up. -/
def push (h : Array α) (x : α) : Array α :=
  up less (h.push x) h.size (by simp)

/-- `heap.Pop(h)` on a non-empty heap: swap the root with the last element,
move the new root down over the others and remove the last element, the old
root, which it returns. -/
def pop (h : Array α) (hne : 0 < h.size) : α × Array α :=
  let h' := down less (h.swap 0 (h.size - 1)) 0 (h.size - 1) (by rw [Array.size_swap]; omega)
  have hlast : h.size - 1 < h'.size := by simp only [h', size_down, Array.size_swap]; omega
  (h'[h.size - 1], h'.pop)

@[simp] theorem size_push (h : Array α) (x : α) : (push less h x).size = h.size + 1 := by
  simp [push]

@[simp] theorem size_pop (h : Array α) (hne : 0 < h.size) : (pop less h hne).2.size = h.size - 1 := by
  simp [pop]

theorem push_perm (h : Array α) (x : α) : (push less h x).Perm (h.push x) :=
  up_perm less _ _ _

/-- Putting the last element back after removing it gives the array again. -/
theorem pop_push_getElem {xs : Array α} {i : Nat} (hi : i < xs.size) (hlast : i + 1 = xs.size) :
    xs.pop.push xs[i] = xs := by
  apply Array.ext
  · simp only [Array.size_push, Array.size_pop]
    omega
  · intro k hk₁ hk₂
    rw [Array.getElem_push]
    split
    · exact Array.getElem_pop _
    · next hk =>
      simp only [Array.size_pop] at hk₁ hk
      congr 1
      omega

theorem pop_perm (h : Array α) (hne : 0 < h.size) : ((pop less h hne).2.push (pop less h hne).1).Perm h := by
  simp only [pop]
  rw [pop_push_getElem _ (by simp only [size_down, Array.size_swap]; omega)]
  exact (down_perm less _ _ _ _).trans (Array.swap_perm _ _)

theorem push_toList_perm (h : Array α) (x : α) : (push less h x).toList.Perm (h.toList ++ [x]) := by
  simpa using Array.perm_iff_toList_perm.mp (push_perm less h x)

theorem pop_toList_perm (h : Array α) (hne : 0 < h.size) :
    ((pop less h hne).2.toList ++ [(pop less h hne).1]).Perm h.toList := by
  simpa using Array.perm_iff_toList_perm.mp (pop_perm less h hne)

theorem pop_snd (h : Array α) (hne : 0 < h.size) :
    (pop less h hne).2 = (down less (h.swap 0 (h.size - 1)) 0 (h.size - 1) (by simp)).pop := rfl

theorem pop_fst (h : Array α) (hne : 0 < h.size) : (pop less h hne).1 = h[0] := by
  simp only [pop]
  rw [Array.getElem_eq_iff, getElem?_down_of_le less _ _ _ _ (Nat.le_refl _), Array.getElem?_swap,
    if_pos rfl]

/-! ## The heap order -/

/-- The first `n` positions are in heap order: none is less than its parent. -/
def Ordered (h : Array α) (n : Nat) : Prop :=
  ∀ k p (hk : k < h.size) (hp : p < h.size), k < n → 0 < k → (k - 1) / 2 = p → less h[k] h[p] = false

/-- `h` is a heap. -/
def IsHeap (h : Array α) : Prop := Ordered less h h.size

/-- What `up` needs of the order at `j`: every other position is in order
with its parent, and the children of `j` are not less than the parent of `j`. -/
structure UpOrder (h : Array α) (j : Nat) : Prop where
  except : ∀ k p (hk : k < h.size) (hp : p < h.size), 0 < k → (k - 1) / 2 = p → k ≠ j →
    less h[k] h[p] = false
  grand : ∀ c g (hc : c < h.size) (hg : g < h.size), 0 < c → (c - 1) / 2 = j → 0 < j → (j - 1) / 2 = g →
    less h[c] h[g] = false

/-- What `down` needs of the order at `i`, among the first `n` positions: every
position whose parent is not `i` is in order with its parent, and the children
of `i` are not less than the parent of `i`. -/
structure DownOrder (h : Array α) (i n : Nat) : Prop where
  except : ∀ k p (hk : k < h.size) (hp : p < h.size), k < n → 0 < k → (k - 1) / 2 = p → p ≠ i →
    less h[k] h[p] = false
  grand : ∀ c g (hc : c < h.size) (hg : g < h.size), c < n → 0 < c → (c - 1) / 2 = i → 0 < i →
    (i - 1) / 2 = g → less h[c] h[g] = false

variable {less}

/-- Removing the last element of an array ordered but for it leaves a heap. -/
theorem Ordered.isHeap_pop {xs : Array α} {n : Nat} (ho : Ordered less xs n) (hn : n + 1 = xs.size) :
    IsHeap less xs.pop := by
  intro k p hk hp _ hk0 hkp
  rw [Array.getElem_pop, Array.getElem_pop]
  simp only [Array.size_pop] at hk
  exact ho k p _ _ (by omega) hk0 hkp

theorem UpOrder.finish {h : Array α} {j : Nat} (hj : j < h.size) (o : UpOrder less h j)
    (hstop : j = 0 ∨ less h[j] h[(j - 1) / 2] = false) : IsHeap less h := by
  intro k p hk hp _ hk0 hkp
  by_cases hkj : k = j
  · subst hkj hkp
    rcases hstop with h0 | hstop
    · omega
    · exact hstop
  · exact o.except k p hk hp hk0 hkp hkj

theorem DownOrder.finish {h : Array α} {i n : Nat} (o : DownOrder less h i n)
    (hstop : ∀ c (hc : c < h.size) (hi : i < h.size), c < n → 0 < c → (c - 1) / 2 = i → less h[c] h[i] = false) :
    Ordered less h n := by
  intro k p hk hp hkn hk0 hkp
  by_cases hpi : p = i
  · subst hpi
    exact hstop k hk hp hkn hk0 hkp
  · exact o.except k p hk hp hkn hk0 hkp hpi

section StrictWeakOrder

variable [IsStrictWeakOrder α fun a b => less a b = true]

/-! ### `up` -/

/-- One swap of `up`: the element at `j`, less than its parent `p`, changes
places with it, and the order `up` needs moves to `p`. -/
theorem UpOrder.move {h : Array α} {j p : Nat} (hj : j < h.size) (hp : p < h.size) (o : UpOrder less h j)
    (hj0 : 0 < j) (hpj : (j - 1) / 2 = p) (hless : less h[j] h[p] = true) :
    UpOrder less (h.swap p j) p where
  except k q hk hq hk0 hkq hkp := by
    have hk' : k < h.size := by rwa [Array.size_swap] at hk
    have hq' : q < h.size := by rwa [Array.size_swap] at hq
    by_cases hkj : k = j
    · subst hkj
      obtain rfl : q = p := by omega
      rw [Array.getElem_swap_right, Array.getElem_swap_left]
      exact less_asymm hless
    · rw [Array.getElem_swap_of_ne hkp hkj]
      by_cases hqj : q = j
      · subst hqj
        rw [Array.getElem_swap_right]
        exact o.grand k p hk' hp hk0 hkq hj0 hpj
      · by_cases hqp : q = p
        · -- a sibling of the element that moved up
          subst hqp
          rw [Array.getElem_swap_left]
          exact not_less_trans (o.except k q hk' hq' hk0 hkq hkj) (less_asymm hless)
        · rw [Array.getElem_swap_of_ne hqp hqj]
          exact o.except k q hk' hq' hk0 hkq hkj
  grand c g hc hg hc0 hcp hp0 hpg := by
    have hc' : c < h.size := by rwa [Array.size_swap] at hc
    have hg' : g < h.size := by rwa [Array.size_swap] at hg
    have hgp : g ≠ p := by omega
    have hgj : g ≠ j := by omega
    have hpg' : less h[p] h[g] = false := o.except p g hp hg' hp0 hpg (by omega)
    rw [Array.getElem_swap_of_ne hgp hgj]
    by_cases hcj : c = j
    · subst hcj
      rw [Array.getElem_swap_right]
      exact hpg'
    · have hcp' : c ≠ p := by omega
      rw [Array.getElem_swap_of_ne hcp' hcj]
      exact not_less_trans (o.except c p hc' hp hc0 hcp hcj) hpg'

theorem UpOrder.isHeap_up {h : Array α} {j : Nat} (hj : j < h.size) (o : UpOrder less h j) :
    IsHeap less (up less h j hj) := by
  fun_induction up less h j hj with
  | case1 h j hj hstop => exact o.finish hj (hstop.imp_left fun h0 => by omega)
  | case2 h j hj hstop ih =>
    obtain ⟨-, hless⟩ := not_or.mp hstop
    exact ih (o.move hj _ (by omega) rfl (by simpa using hless))

theorem isHeap_push {h : Array α} (hh : IsHeap less h) (x : α) : IsHeap less (push less h x) := by
  apply UpOrder.isHeap_up
  constructor
  · intro k p hk hp hk0 hkp hkn
    have hk' : k < h.size := by simp only [Array.size_push] at hk; omega
    rw [Array.getElem_push_lt hk', Array.getElem_push_lt (by omega)]
    exact hh k p hk' (by omega) hk' hk0 hkp
  · intro c g hc _ _ hcj _ _
    simp only [Array.size_push] at hc
    omega

/-! ### `down` -/

/-- The child `down` picks is not greater than any child of `i`. -/
theorem not_less_smallerChild {h : Array α} {i n j : Nat} (hn : n ≤ h.size)
    (hjdef : smallerChild less h i n hn = j) (hj : j < h.size) {c : Nat} (hc : c < h.size) (hcn : c < n)
    (hc0 : 0 < c) (hci : (c - 1) / 2 = i) : less h[c] h[j] = false := by
  have hcases : c = 2 * i + 1 ∨ c = 2 * i + 1 + 1 := by omega
  unfold smallerChild at hjdef
  split at hjdef
  · next h2 =>
    split at hjdef
    · next hright =>
      subst hjdef
      rcases hcases with rfl | rfl
      · exact less_asymm hright
      · exact not_less_self _
    · next hright =>
      subst hjdef
      rcases hcases with rfl | rfl
      · exact not_less_self _
      · simpa using hright
  · subst hjdef
    obtain rfl : c = 2 * i + 1 := by omega
    exact not_less_self _

/-- One swap of `down`: the element at `i` changes places with its smaller
child `j`, which is less than it, and the order `down` needs moves to `j`. -/
theorem DownOrder.move {h : Array α} {i n j : Nat} (hn : n ≤ h.size) (o : DownOrder less h i n)
    (hleaf : ¬ n ≤ 2 * i + 1) (hjdef : smallerChild less h i n hn = j) (hi : i < h.size) (hj : j < h.size)
    (hless : less h[j] h[i] = true) : DownOrder less (h.swap i j) j n := by
  have hchild : j < n ∧ 0 < j ∧ (j - 1) / 2 = i := by
    rcases smallerChild_cases less h i n hn with h1 | ⟨h2, h2n⟩ <;> omega
  obtain ⟨hjn, hj0, hji⟩ := hchild
  constructor
  · intro k q hk hq hkn hk0 hkq hqj
    have hk' : k < h.size := by rwa [Array.size_swap] at hk
    have hq' : q < h.size := by rwa [Array.size_swap] at hq
    by_cases hkj : k = j
    · subst hkj
      obtain rfl : q = i := by omega
      rw [Array.getElem_swap_right, Array.getElem_swap_left]
      exact less_asymm hless
    · by_cases hki : k = i
      · -- the smaller child moved up, under the parent of `i`
        subst hki
        have hqk : q ≠ k := by omega
        rw [Array.getElem_swap_left, Array.getElem_swap_of_ne hqk hqj]
        exact o.grand j q hj hq' hjn hj0 hji hk0 hkq
      · rw [Array.getElem_swap_of_ne hki hkj]
        by_cases hqi : q = i
        · subst hqi
          rw [Array.getElem_swap_left]
          exact not_less_smallerChild hn hjdef hj hk' hkn hk0 hkq
        · rw [Array.getElem_swap_of_ne hqi hqj]
          exact o.except k q hk' hq' hkn hk0 hkq hqi
  · intro c g hc hg hcn hc0 hcj _ hjg
    have hc' : c < h.size := by rwa [Array.size_swap] at hc
    obtain rfl : g = i := by omega
    have hcg : c ≠ g := by omega
    have hcj' : c ≠ j := by omega
    rw [Array.getElem_swap_of_ne hcg hcj', Array.getElem_swap_left]
    exact o.except c j hc' hj hcn hc0 hcj (by omega)

theorem DownOrder.ordered_down {h : Array α} {i n : Nat} (hn : n ≤ h.size) (o : DownOrder less h i n) :
    Ordered less (down less h i n hn) n := by
  fun_induction down less h i n hn with
  | case1 h i hn hleaf => exact o.finish fun c _ _ hcn _ hci => by omega
  | case2 h i hn hleaf hj hless ih => exact ih (o.move hn hleaf rfl _ _ hless)
  | case3 h i hn hleaf hj hless =>
    refine o.finish fun c hc hi hcn hc0 hci => ?_
    exact not_less_trans (not_less_smallerChild hn rfl _ hc hcn hc0 hci) (by simpa using hless)

theorem isHeap_pop {h : Array α} (hne : 0 < h.size) (hh : IsHeap less h) : IsHeap less (pop less h hne).2 := by
  -- after the swap, every position but the root is in order off the root
  have o : DownOrder less (h.swap 0 (h.size - 1)) 0 (h.size - 1) := by
    constructor
    · intro k q hk hq hkn hk0 hkq hq0
      have hk' : k < h.size := by rwa [Array.size_swap] at hk
      have hq' : q < h.size := by rwa [Array.size_swap] at hq
      rw [Array.getElem_swap_of_ne (by omega) (by omega), Array.getElem_swap_of_ne hq0 (by omega)]
      exact hh k q hk' hq' hk' hk0 hkq
    · intro _ _ _ _ _ _ _ h0
      omega
  rw [pop_snd]
  exact (o.ordered_down _).isHeap_pop (by simp only [size_down, Array.size_swap]; omega)

/-- No element of a heap is less than its root. -/
theorem IsHeap.not_less_root {h : Array α} (hh : IsHeap less h) (h0 : 0 < h.size) :
    ∀ k (hk : k < h.size), less h[k] h[0] = false := by
  intro k
  induction k using Nat.strong_induction_on with
  | _ k ih =>
    intro hk
    rcases Nat.eq_zero_or_pos k with rfl | hk0
    · exact not_less_self _
    · -- up the path to the root, one parent at a time
      have hp : (k - 1) / 2 < k := by omega
      exact not_less_trans (hh k _ hk (by omega) hk hk0 rfl) (ih _ hp (by omega))

theorem IsHeap.not_less_pop_fst {h : Array α} (hne : 0 < h.size) (hh : IsHeap less h) :
    ∀ y ∈ h.toList, less y (pop less h hne).1 = false := by
  intro y hy
  obtain ⟨k, hk, rfl⟩ := Array.mem_iff_getElem.mp (Array.mem_def.mpr hy)
  rw [pop_fst]
  exact hh.not_less_root hne k hk

end StrictWeakOrder

end PlacementDriver.Go.ContainerHeap
