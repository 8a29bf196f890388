import PlacementDriver.Core.RegionInfo

/-!
# Rolling statistics and hot-region records

`core.RollingStats` (in `server/core/statistics.go`) is a window of the last
`size` flow readings, written round-robin at `count % size`. `core.RegionStat`
(in `server/core/region.go`) is what the hot-spot cache stores for a region;
its `Stats` field is a pointer to a `RollingStats`, shared by the successive
records of one region, and `Add` writes through it.

We keep the `RollingStats` objects in a heap, a list indexed by address, and
a `RegionStat` holds the address (`none` for a nil pointer). Every way the Go
code can panic on these objects is `none` in the model: a zero `size` in `%`,
an index out of range, a nil or dangling `Stats`.

## Main results

* `WF.add`: `Add` on a well-formed window succeeds and keeps it well-formed.
* `WF.median_isSome`: `Median` on a well-formed window does not panic.
* `HeapWF.addAt`: `Add` through an allocated pointer into a heap of
  well-formed windows succeeds and keeps the heap well-formed.
-/

namespace PlacementDriver

/-- `core.RollingStats`. -/
structure RollingStats where
  records : List Float
  size : Int
  count : Int

namespace RollingStats

/-- `NewRollingStats(size)`; `make` panics on a negative size. -/
def newRollingStats (size : Int) : Option RollingStats :=
  if 0 ≤ size then some ⟨List.replicate size.toNat 0, size, 0⟩ else none

/-- `Add`: `r.records[r.count%r.size] = n`, then `count++`. -/
def add (r : RollingStats) (n : Float) : Option RollingStats :=
  -- Go's `%` panics on a zero divisor and truncates toward zero
  if r.size = 0 then none
  else
    let i := r.count.tmod r.size
    if 0 ≤ i ∧ i.toNat < r.records.length then
      some { r with records := r.records.set i.toNat n, count := r.count + 1 }
    else none

/-- `Median`, with the `stats.Median` of the `stats` package as a parameter. -/
def median (statsMedian : List Float → Float) (r : RollingStats) : Option Float :=
  if r.count = 0 then some 0
  else if r.count < r.size then
    -- `r.records[:r.count]` panics unless `0 ≤ count ≤ cap(records)`
    if 0 ≤ r.count ∧ r.count.toNat ≤ r.records.length then
      some (statsMedian (r.records.take r.count.toNat))
    else none
  else some (statsMedian r.records)

/-- A window as `NewRollingStats` with a positive size builds it and `Add`
keeps it. -/
structure WF (r : RollingStats) : Prop where
  size_pos : 0 < r.size
  length_eq : r.records.length = r.size.toNat
  count_nonneg : 0 ≤ r.count

variable {r : RollingStats}

theorem wf_newRollingStats {size : Int} (hsize : 0 < size) :
    ∃ r, newRollingStats size = some r ∧ r.WF := by
  refine ⟨⟨List.replicate size.toNat 0, size, 0⟩, if_pos (le_of_lt hsize), ?_⟩
  exact ⟨hsize, List.length_replicate, le_rfl⟩

/-- The slot `Add` writes is in range. -/
theorem WF.slot_lt (h : r.WF) : (r.count.tmod r.size).toNat < r.records.length := by
  have hlt := Int.tmod_lt_of_pos r.count h.size_pos
  have hnonneg := Int.tmod_nonneg r.size h.count_nonneg
  rw [h.length_eq]
  omega

theorem WF.add (h : r.WF) (n : Float) : ∃ r', r.add n = some r' ∧ r'.WF := by
  have hslot := h.slot_lt
  have hnonneg := Int.tmod_nonneg r.size h.count_nonneg
  refine ⟨{ r with records := r.records.set (r.count.tmod r.size).toNat n, count := r.count + 1 }, ?_, ?_⟩
  · rw [RollingStats.add, if_neg (ne_of_gt h.size_pos), if_pos ⟨hnonneg, hslot⟩]
  · refine ⟨h.size_pos, ?_, ?_⟩
    · rw [List.length_set]
      exact h.length_eq
    · have := h.count_nonneg
      show 0 ≤ r.count + 1
      omega

theorem WF.median_isSome (h : r.WF) (statsMedian : List Float → Float) :
    (r.median statsMedian).isSome := by
  unfold median
  split_ifs with hzero hlt hslice
  · rfl
  · rfl
  · -- a count below the size is within the records
    have := h.count_nonneg
    have := h.length_eq
    exact absurd ⟨h.count_nonneg, by omega⟩ hslice
  · rfl

end RollingStats

/-! ## The heap of windows -/

/-- Every window allocated so far is well-formed. -/
def HeapWF (heap : List RollingStats) : Prop := ∀ r ∈ heap, r.WF

/-- `s.Stats.Add(n)` through the pointer `p`. -/
def addAt (heap : List RollingStats) (p : Option Nat) (n : Float) : Option (List RollingStats) :=
  match p with
  | none => none
  | some a => do
      let r ← heap[a]?
      let r' ← r.add n
      pure (heap.set a r')

variable {heap : List RollingStats}

theorem HeapWF.addAt (h : HeapWF heap) {a : Nat} (ha : a < heap.length) (n : Float) :
    ∃ heap', addAt heap (some a) n = some heap' ∧ HeapWF heap' ∧ heap'.length = heap.length := by
  have hr : heap[a]? = some heap[a] := List.getElem?_eq_getElem ha
  obtain ⟨r', hadd, hwf'⟩ := (h heap[a] (List.getElem_mem ha)).add n
  refine ⟨heap.set a r', ?_, fun x hx => ?_, List.length_set⟩
  · simp only [PlacementDriver.addAt, hr, hadd, Option.bind_eq_bind, Option.bind_some]
    rfl
  · -- the written slot holds the new window, the others are unchanged
    obtain ⟨i, hi⟩ := List.mem_iff_getElem?.mp hx
    by_cases hia : a = i
    · subst hia
      rw [List.getElem?_set_self ha] at hi
      cases hi
      exact hwf'
    · rw [List.getElem?_set_ne hia] at hi
      exact h x (List.mem_of_getElem? hi)

theorem HeapWF.append (h : HeapWF heap) {r : RollingStats} (hr : r.WF) : HeapWF (heap ++ [r]) := by
  intro x hx
  rcases List.mem_append.mp hx with hx | hx
  · exact h x hx
  · rw [List.mem_singleton.mp hx]
    exact hr

/-! ## `RegionStat` -/

/-- `core.RegionStat`; `stats` is the address of its `RollingStats`. -/
structure RegionStat where
  regionID : UInt64
  flowBytes : UInt64
  hotDegree : Int
  lastUpdateTime : Int
  storeID : UInt64
  antiCount : Int
  version : UInt64
  stats : Option Nat
deriving DecidableEq, Repr

/-- `NewRegionStat`; `time.Now()` is `now`, in nanoseconds. -/
def newRegionStat (region : RegionInfo) (flowBytes : UInt64) (antiCount : Int) (now : Int) : RegionStat :=
  { regionID := region.getID
    flowBytes := flowBytes
    hotDegree := 0
    lastUpdateTime := now
    storeID := region.leaderStoreId
    antiCount := antiCount
    version := region.regionMeta.regionEpoch.version
    stats := none }

end PlacementDriver
