import PlacementDriver.Core.RegionInfo
import PlacementDriver.Go.ContainerHeap

/-!
# Top `n` regions through a bounded heap

`topNRegions(regions, less, n)` in `api/region.go` keeps the `n` greatest
regions seen so far in a `RegionHeap`, a min-heap under `less` driven by
`container/heap`: a region goes in while the heap holds fewer than `n`, and
otherwise replaces the minimum when the minimum is less than it. The heap is
then popped empty into the result from the back, so the result runs from the
greatest region down.

`RegionHeap` is a slice with the `Len`, `Less`, `Swap`, `Push` and `Pop` of
one; we keep its slice as an `Array` and its `less` as a parameter, and the
regions as elements of any type. Go returns `nil` for `n <= 0`; we do not tell
`nil` from an empty slice.

The loop keeps `Selects`: the heap is a heap and holds `min n k` of the `k`
regions seen, the regions it holds and those it left out are a permutation
of the regions seen, and no region left out is greater than one it holds.

The `less` functions the `GetTop…` handlers pass all compare a key of the
region (`byKey`), and are strict weak orders (`isStrictWeakOrder_getTop`).

## Main results

* `Selects.run`: the loop keeps `Selects` over the whole list.
* `popAll_perm`, `popAll_pairwise`: emptying a heap gives its regions from
  the greatest down.
* `topNRegions_spec`: the result has `min (max n 0) (len regions)` regions,
  runs from the greatest down, and no region left out is greater than one
  returned.
* `bounded_heap_top_n_correct`: moreover, the result agrees, up to
  incomparable regions, with the first `n` of any sorting of the regions from
  the greatest down.
-/

namespace PlacementDriver.Api

open PlacementDriver.Go.ContainerHeap PlacementDriver.Verified.StrictWeakOrder
open scoped List

variable {α : Type*} (less : α → α → Bool)

/-- One pass of the loop over `regions`, on the heap `hp` with room for `n`
regions: `heap.Push` while there is room, else a `heap.Pop` and `heap.Push`
when `less(hp.Min(), r)`. -/
def selectStep (n : Nat) (hp : Array α) (r : α) : Array α :=
  if hp.size < n then push less hp r
  else if h : 0 < hp.size then
    if less hp[0] r then push less (pop less hp h).2 r else hp
  -- `hp.Min()` is nil only on an empty heap, which is not full for `n > 0`
  else hp

/-- The loop `for i := hp.Len() - 1; i >= 0; i-- { res[i] = heap.Pop(hp) }`:
the region popped first is the last of `res`. -/
def popAll (hp : Array α) : List α :=
  if h : 0 < hp.size then popAll (pop less hp h).2 ++ [(pop less hp h).1] else []
termination_by hp.size
decreasing_by simp only [size_pop]; omega

/-- `topNRegions(regions, less, n)`. -/
def topNRegions (regions : List α) (n : Int) : List α :=
  if n ≤ 0 then []
  else popAll less (regions.foldl (selectStep less n.toNat) #[])

/-- `func(a, b *core.RegionInfo) bool { return key(a) < key(b) }`: the form
of the `less` every `GetTop…` handler passes to `GetTopNRegions`. -/
def byKey {β : Type*} [LT β] [DecidableLT β] (key : α → β) (a b : α) : Bool := decide (key a < key b)

/-- The `less` of `GetTopWriteFlow`: by `GetBytesWritten`. -/
def getTopWriteFlowLess : RegionInfo → RegionInfo → Bool := byKey fun r => r.writtenBytes

/-- The `less` of `GetTopReadFlow`: by `GetBytesRead`. -/
def getTopReadFlowLess : RegionInfo → RegionInfo → Bool := byKey fun r => r.readBytes

/-- The `less` of `GetTopConfVer`: by `GetMeta().GetRegionEpoch().GetConfVer()`. -/
def getTopConfVerLess : RegionInfo → RegionInfo → Bool := byKey fun r => r.regionMeta.regionEpoch.confVer

/-- The `less` of `GetTopVersion`: by `GetMeta().GetRegionEpoch().GetVersion()`. -/
def getTopVersionLess : RegionInfo → RegionInfo → Bool := byKey fun r => r.regionMeta.regionEpoch.version

/-- The `less` of `GetTopSize`: by `GetApproximateSize`. -/
def getTopSizeLess : RegionInfo → RegionInfo → Bool := byKey fun r => r.approximateSize

/-- Ordering by a key keeps a strict weak order of the keys. -/
theorem isStrictWeakOrder_byKey {β : Type*} [LT β] [DecidableLT β] [IsStrictWeakOrder β (· < ·)] (key : α → β) :
    IsStrictWeakOrder α fun a b => byKey key a b = true := by
  have hrel : (fun a b => byKey key a b = true) = Function.onFun (· < ·) key := by
    funext a b
    simp [byKey, Function.onFun]
  rw [hrel]
  infer_instance

instance isStrictWeakOrder_int_lt : IsStrictWeakOrder ℤ (· < ·) := isStrictWeakOrder_of_isOrderConnected

/-- `uint64` comparison is a strict weak order: it is that of the values. -/
instance isStrictWeakOrder_uint64_lt : IsStrictWeakOrder UInt64 (· < ·) := by
  have hrel : (fun a b : UInt64 => a < b) = Function.onFun (· < ·) UInt64.toNat := by
    funext a b
    simp [Function.onFun, UInt64.lt_iff_toNat_lt]
  have : IsStrictWeakOrder ℕ (· < ·) := isStrictWeakOrder_of_isOrderConnected
  rw [hrel]
  infer_instance

/-- Every `less` a `GetTop…` handler passes is a strict weak order. -/
theorem isStrictWeakOrder_getTop :
    IsStrictWeakOrder RegionInfo (fun a b => getTopWriteFlowLess a b = true) ∧
      IsStrictWeakOrder RegionInfo (fun a b => getTopReadFlowLess a b = true) ∧
      IsStrictWeakOrder RegionInfo (fun a b => getTopConfVerLess a b = true) ∧
      IsStrictWeakOrder RegionInfo (fun a b => getTopVersionLess a b = true) ∧
      IsStrictWeakOrder RegionInfo (fun a b => getTopSizeLess a b = true) :=
  ⟨isStrictWeakOrder_byKey _, isStrictWeakOrder_byKey _, isStrictWeakOrder_byKey _, isStrictWeakOrder_byKey _,
    isStrictWeakOrder_byKey _⟩

theorem popAll_perm (hp : Array α) : (popAll less hp).Perm hp.toList := by
  fun_induction popAll less hp with
  | case1 hp h ih => exact (ih.append_right _).trans (pop_toList_perm less hp h)
  | case2 hp h =>
    rw [Array.eq_empty_of_size_eq_zero (by omega : hp.size = 0)]

/-- The heap holds `min n k` of the `k` regions seen, and the regions left out
are none of them greater than a region it holds. -/
structure Selects (n : Nat) (seen : List α) (hp : Array α) (leftOut : List α) : Prop where
  heap : IsHeap less hp
  size_eq : hp.size = min n seen.length
  perm : (hp.toList ++ leftOut).Perm seen
  not_less : ∀ x ∈ leftOut, ∀ y ∈ hp.toList, less y x = false

theorem selects_nil (n : Nat) : Selects less n [] #[] [] where
  heap := fun _ _ hk => absurd hk (Nat.not_lt_zero _)
  size_eq := by simp
  perm := .nil
  not_less := fun _ hx => absurd hx List.not_mem_nil

variable {less} [IsStrictWeakOrder α fun a b => less a b = true]

/-- One pass of the loop keeps `Selects`. -/
theorem Selects.step {n : Nat} {seen : List α} {hp : Array α} {leftOut : List α}
    (hs : Selects less n seen hp leftOut) (hn : 0 < n) (r : α) :
    ∃ leftOut', Selects less n (seen ++ [r]) (selectStep less n hp r) leftOut' := by
  have hlen : hp.size + leftOut.length = seen.length := by simpa using hs.perm.length_eq
  have hsize := hs.size_eq
  unfold selectStep
  split
  · next hlt =>
    -- room left: every region seen is in the heap, and `r` joins them
    obtain rfl : leftOut = [] := List.eq_nil_of_length_eq_zero (by omega)
    refine ⟨[], isHeap_push hs.heap r, ?_, ?_, fun _ hx => absurd hx List.not_mem_nil⟩
    · simp only [size_push, List.length_append, List.length_singleton]
      omega
    · rw [List.append_nil]
      exact (push_toList_perm less hp r).trans (by simpa using hs.perm.append_right [r])
  · next hfull =>
    have hpos : 0 < hp.size := by omega
    rw [dif_pos hpos]
    split
    · next hless =>
      -- the minimum leaves for `r`
      have hmin := hs.heap.not_less_pop_fst hpos
      rw [pop_fst] at hmin
      refine ⟨(pop less hp hpos).1 :: leftOut, isHeap_push (isHeap_pop hpos hs.heap) r, ?_, ?_, ?_⟩
      · simp only [size_push, size_pop, List.length_append, List.length_singleton]
        omega
      · -- the minimum and `r` change sides
        have hswap : ((pop less hp hpos).2.toList ++ [r] ++ (pop less hp hpos).1 :: leftOut).Perm
            ((pop less hp hpos).2.toList ++ [(pop less hp hpos).1] ++ leftOut ++ [r]) := by
          classical
          rw [List.perm_iff_count]
          intro a
          simp only [List.count_append, List.count_cons, List.count_nil]
          omega
        calc ((push less (pop less hp hpos).2 r).toList ++ (pop less hp hpos).1 :: leftOut).Perm
              ((pop less hp hpos).2.toList ++ [r] ++ (pop less hp hpos).1 :: leftOut) :=
            (push_toList_perm less _ r).append_right _
          _ ~ (pop less hp hpos).2.toList ++ [(pop less hp hpos).1] ++ leftOut ++ [r] := hswap
          _ ~ seen ++ [r] := (((pop_toList_perm less hp hpos).append_right _).trans hs.perm).append_right _
      · intro x hx y hy
        have hy' : y ∈ (pop less hp hpos).2.toList ++ [r] := (push_toList_perm less _ r).mem_iff.mp hy
        have hroot : hp[0] ∈ hp.toList := Array.mem_def.mp (Array.getElem_mem hpos)
        rw [pop_fst] at hx
        rcases List.mem_append.mp hy' with hy' | hy'
        · have hyhp : y ∈ hp.toList :=
            (pop_toList_perm less hp hpos).mem_iff.mp (List.mem_append_left _ hy')
          rcases List.mem_cons.mp hx with rfl | hx
          · exact hmin y hyhp
          · exact hs.not_less x hx y hyhp
        · obtain rfl := List.mem_singleton.mp hy'
          rcases List.mem_cons.mp hx with rfl | hx
          · exact less_asymm hless
          · exact not_less_of_less_of_not_less hless (hs.not_less x hx _ hroot)
    · next hless =>
      -- `r` is left out: it is not greater than the minimum
      refine ⟨leftOut ++ [r], hs.heap, by simp only [List.length_append, List.length_singleton]; omega, ?_, ?_⟩
      · rw [← List.append_assoc]
        exact hs.perm.append_right [r]
      · intro x hx y hy
        rcases List.mem_append.mp hx with hx | hx
        · exact hs.not_less x hx y hy
        · obtain rfl := List.mem_singleton.mp hx
          have hmin := hs.heap.not_less_pop_fst hpos y hy
          rw [pop_fst] at hmin
          exact not_less_trans hmin (by simpa using hless)

/-- The loop over a list keeps `Selects`. -/
theorem Selects.foldl {n : Nat} (hn : 0 < n) (regions : List α) :
    ∀ {seen : List α} {hp : Array α} {leftOut : List α}, Selects less n seen hp leftOut →
      ∃ leftOut', Selects less n (seen ++ regions) (regions.foldl (selectStep less n) hp) leftOut' := by
  induction regions with
  | nil =>
    intro seen hp leftOut hs
    exact ⟨leftOut, by simpa using hs⟩
  | cons r rest ih =>
    intro seen hp leftOut hs
    obtain ⟨leftOut', hs'⟩ := hs.step hn r
    have := ih hs'
    rwa [List.append_assoc, List.singleton_append] at this

theorem Selects.run {n : Nat} (hn : 0 < n) (regions : List α) :
    ∃ leftOut, Selects less n regions (regions.foldl (selectStep less n) #[]) leftOut := by
  simpa using (selects_nil less n).foldl hn regions

/-- Emptying a heap gives its regions from the greatest down: no region is
less than one after it. -/
theorem popAll_pairwise {hp : Array α} (hh : IsHeap less hp) :
    (popAll less hp).Pairwise fun a b => less a b = false := by
  fun_induction popAll less hp with
  | case1 hp h ih =>
    rw [List.pairwise_append]
    refine ⟨ih (isHeap_pop h hh), List.pairwise_singleton _ _, ?_⟩
    -- the regions popped later were in the heap the minimum was popped from
    intro a ha b hb
    obtain rfl := List.mem_singleton.mp hb
    have hmem : a ∈ hp.toList := (pop_toList_perm less hp h).mem_iff.mp
      (List.mem_append_left _ ((popAll_perm less _).mem_iff.mp ha))
    exact hh.not_less_pop_fst h a hmem
  | case2 => exact .nil

theorem topNRegions_spec (regions : List α) (n : Int) :
    ((topNRegions less regions n).length : Int) = min (max n 0) regions.length ∧
      (topNRegions less regions n).Pairwise (fun a b => less a b = false) ∧
      ∃ leftOut, (topNRegions less regions n ++ leftOut).Perm regions ∧
        ∀ x ∈ leftOut, ∀ y ∈ topNRegions less regions n, less y x = false := by
  unfold topNRegions
  split
  · next hn =>
    refine ⟨by simp; omega, .nil, regions, by simp, fun _ _ _ hy => absurd hy List.not_mem_nil⟩
  · next hn =>
    obtain ⟨leftOut, hs⟩ := @Selects.run α less _ n.toNat (by omega) regions
    have hperm := popAll_perm less (regions.foldl (selectStep less n.toNat) #[])
    refine ⟨?_, popAll_pairwise hs.heap, leftOut, (hperm.append_right _).trans hs.perm, ?_⟩
    · rw [hperm.length_eq, Array.length_toList, hs.size_eq]
      omega
    · intro x hx y hy
      exact hs.not_less x hx y (hperm.mem_iff.mp hy)

theorem bounded_heap_top_n_correct (regions : List α) (n : Int) :
    ((topNRegions less regions n).length : Int) = min (max n 0) regions.length ∧
      (topNRegions less regions n).Pairwise (fun a b => less a b = false) ∧
      (∃ leftOut, (topNRegions less regions n ++ leftOut).Perm regions ∧
        ∀ x ∈ leftOut, ∀ y ∈ topNRegions less regions n, less y x = false) ∧
      ∀ sorted : List α, sorted.Perm regions → sorted.Pairwise (fun a b => less a b = false) →
        List.Forall₂ (Incomparable less) (topNRegions less regions n) (sorted.take n.toNat) := by
  obtain ⟨hlen, hres, leftOut, hperm, hleft⟩ := @topNRegions_spec α less _ regions n
  refine ⟨hlen, hres, ⟨leftOut, hperm, hleft⟩, fun sorted hs hsorted => ?_⟩
  have h := forall₂_take_of_selection hres (hperm.trans hs.symm) hleft hsorted
  have htake : sorted.take (topNRegions less regions n).length = sorted.take n.toNat := by
    have := hs.length_eq
    exact List.take_eq_take_iff.mpr (by omega)
  rwa [htake] at h

/-- Regions with the given written bytes, as in `TestTopN`. -/
def writeFlowRegion (id writtenBytes : UInt64) : RegionInfo :=
  { newRegionInfo ⟨id, [], [], ⟨1, 1⟩, []⟩ none with writtenBytes := writtenBytes }

/-- Four regions, two of them written most. -/
def writeFlowRegions : List RegionInfo :=
  [writeFlowRegion 1 3, writeFlowRegion 2 10, writeFlowRegion 3 2, writeFlowRegion 4 10]

theorem bounded_heap_top_n_correct_writeFlow :
    IsStrictWeakOrder RegionInfo (fun a b => getTopWriteFlowLess a b = true) ∧
      (((topNRegions getTopWriteFlowLess writeFlowRegions 2).length : Int) = min (max 2 0) writeFlowRegions.length ∧
      (topNRegions getTopWriteFlowLess writeFlowRegions 2).Pairwise (fun a b => getTopWriteFlowLess a b = false) ∧
      (∃ leftOut, (topNRegions getTopWriteFlowLess writeFlowRegions 2 ++ leftOut).Perm writeFlowRegions ∧
        ∀ x ∈ leftOut, ∀ y ∈ topNRegions getTopWriteFlowLess writeFlowRegions 2, getTopWriteFlowLess y x = false) ∧
      ∀ sorted : List RegionInfo, sorted.Perm writeFlowRegions →
        sorted.Pairwise (fun a b => getTopWriteFlowLess a b = false) →
        List.Forall₂ (Incomparable getTopWriteFlowLess) (topNRegions getTopWriteFlowLess writeFlowRegions 2)
          (sorted.take (2 : Int).toNat)) :=
  have hord := isStrictWeakOrder_getTop.1
  ⟨hord, bounded_heap_top_n_correct writeFlowRegions 2⟩

end PlacementDriver.Api
