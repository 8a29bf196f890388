import PlacementDriver.Core.RegionInfo

/-!
# The adjacent region scan

`schedulers/adjacent_region.go`. When its cache of adjacent regions runs
low, `balanceAdjacentRegionScheduler.Schedule` scans up to `scanLimit`
regions from `lastKey` and looks, in one pass, for the longest run of
regions in which each ends where the next starts and both leaders are on one
store. The longest run found becomes the cache, which `process` then
disperses, and `adjacentRegionsCount` grows by its length.

The pass keeps the current run in `adjacentRegions`. When a run ends and is
longer than the longest so far it becomes the cache and a new run starts at
the region that ended it; when it ends and is not longer, nothing resets it.
The stale run then stays the current run, so every later run is measured
against its last region and never grows: the scan misses a longest run that
follows a shorter finished one (`adjacent_scan_misses_longest_run`).

What does hold, for every list: the cache is a chain of adjacent regions
taken in order from the scanned ones, of length `0` or at least `2`; it is
empty exactly when no two consecutive scanned regions are adjacent; and the
count grows by its length.

`process`, the operators it builds and the cache's `assignedStoreIds` and
`head` are not modelled.

## Main results

* `ScanInv.scanLoop`: the loop invariant, along the whole pass.
* `scanRegions_cacheRegions`: what the cache is after a scan of two or more
  regions.
* `adjacent_scan_misses_longest_run`: those facts, and a scan of seven
  regions that caches a run of two next to a run of three.
-/

namespace PlacementDriver.Schedulers

open scoped List

/-- `r` continues a run ending at `lastRegion`: their leaders are on one
store and `lastRegion` ends where `r` starts. -/
def adjacent (lastRegion r : RegionInfo) : Bool :=
  lastRegion.leaderStoreId == r.leaderStoreId && lastRegion.regionMeta.endKey == r.regionMeta.startKey

/-- The variables of the scan loop of `Schedule`. -/
structure AdjacentScan where
  adjacentRegions : List RegionInfo
  maxLen : Nat
  cacheRegions : List RegionInfo
  lastKey : Key

/-- The end of one pass of the loop, past its `continue`: a run of one region
is replaced by `r`; a longer run that is longer than the longest so far
becomes the cache, and a new run starts at `r`; any other run stays. -/
def finishRun (r : RegionInfo) (adjacentRegions : List RegionInfo) (st : AdjacentScan) : AdjacentScan :=
  if adjacentRegions.length = 1 then { st with adjacentRegions := [r] }
  else if st.maxLen < adjacentRegions.length then
    { st with cacheRegions := adjacentRegions, maxLen := adjacentRegions.length, adjacentRegions := [r] }
  else { st with adjacentRegions := adjacentRegions }

/-- One pass of the loop over `regions[1:]`, at `r`; `isLast` is
`i == len(regions)-2`. -/
def scanStep (r : RegionInfo) (isLast : Bool) (st : AdjacentScan) : AdjacentScan :=
  let st := { st with lastKey := r.regionMeta.startKey }
  match st.adjacentRegions.getLast? with
  | some lastRegion =>
    if adjacent lastRegion r then
      let adjacentRegions := st.adjacentRegions ++ [r]
      if !isLast then { st with adjacentRegions := adjacentRegions }
      else finishRun r adjacentRegions st
    else finishRun r st.adjacentRegions st
  -- the run starts with `regions[0]` and is only ever reset to one region
  | none => st

/-- The loop `for i, r := range regions[1:]`. -/
def scanLoop : List RegionInfo → AdjacentScan → AdjacentScan
  | [], st => st
  | r :: rest, st => scanLoop rest (scanStep r rest.isEmpty st)

/-- The fields of `balanceAdjacentRegionScheduler` the scan writes. -/
structure BalanceAdjacentRegionScheduler where
  lastKey : Key
  cacheRegions : List RegionInfo
  adjacentRegionsCount : Int

/-- The scan branch of `Schedule`, taken when the cache holds fewer than two
regions: it is cleared, and `regions` is what `ScanRegions(l.lastKey,
scanLimit)` returns. With one region or none the scan is at the end of the
key space and starts over. -/
def BalanceAdjacentRegionScheduler.scanRegions (l : BalanceAdjacentRegionScheduler) (regions : List RegionInfo) :
    BalanceAdjacentRegionScheduler :=
  match regions with
  | r₀ :: r₁ :: rest =>
    let st := scanLoop (r₁ :: rest) ⟨[r₀], 0, [], l.lastKey⟩
    ⟨st.lastKey, st.cacheRegions, l.adjacentRegionsCount + st.maxLen⟩
  | _ => ⟨[], [], 0⟩

/-! ## The loop invariant -/

/-- Consecutive regions of a run are adjacent. -/
abbrev Adjacent (a b : RegionInfo) : Prop := adjacent a b = true

/-- What the loop keeps after the regions `done`: the current run and the
cache are chains of adjacent regions taken in order from `done`, the cache
of length `maxLen`, `0` or at least `2`; with no adjacent pair in `done` the
run is the last region and nothing is cached; and while nothing is cached,
either `done` has no adjacent pair or the run is a run of two or more that
ends at the last region. -/
structure ScanInv (done : List RegionInfo) (st : AdjacentScan) : Prop where
  run_ne_nil : st.adjacentRegions ≠ []
  run_chain : st.adjacentRegions.IsChain Adjacent
  run_sublist : st.adjacentRegions <+ done
  cache_chain : st.cacheRegions.IsChain Adjacent
  cache_sublist : st.cacheRegions <+ done
  cache_length : st.cacheRegions.length = st.maxLen
  maxLen_cases : st.maxLen = 0 ∨ 2 ≤ st.maxLen
  of_none : done.IsChain (¬ Adjacent · ·) →
    st.maxLen = 0 ∧ st.adjacentRegions.length = 1 ∧ st.adjacentRegions.getLast? = done.getLast?
  of_uncached : st.maxLen = 0 →
    done.IsChain (¬ Adjacent · ·) ∨ (2 ≤ st.adjacentRegions.length ∧ st.adjacentRegions.getLast? = done.getLast?)

theorem scanInv_init (r₀ : RegionInfo) (lastKey : Key) : ScanInv [r₀] ⟨[r₀], 0, [], lastKey⟩ where
  run_ne_nil := List.cons_ne_nil r₀ []
  run_chain := .singleton r₀
  run_sublist := List.Sublist.refl _
  cache_chain := .nil
  cache_sublist := List.nil_sublist _
  cache_length := rfl
  maxLen_cases := .inl rfl
  of_none _ := ⟨rfl, rfl, rfl⟩
  of_uncached _ := .inl (.singleton r₀)

namespace ScanInv

variable {done : List RegionInfo} {st : AdjacentScan} {r : RegionInfo}

/-- Appending `r` to `done` keeps "no adjacent pair" exactly when `r` does not
continue the last region. -/
theorem isChain_append_not_adjacent (hnone : done.IsChain (¬ Adjacent · ·)) {last : RegionInfo}
    (hlast : done.getLast? = some last) (hr : ¬ Adjacent last r) : (done ++ [r]).IsChain (¬ Adjacent · ·) :=
  hnone.append (.singleton r) fun x hx y hy => by
    rw [hlast, Option.mem_some_iff] at hx
    rw [List.head?_cons, Option.mem_some_iff] at hy
    subst hx hy
    exact hr

/-- The run grows by `r`. -/
theorem run_append (h : ScanInv done st) {last : RegionInfo} (hlast : st.adjacentRegions.getLast? = some last)
    (hadj : Adjacent last r) :
    (st.adjacentRegions ++ [r]).IsChain Adjacent ∧ st.adjacentRegions ++ [r] <+ done ++ [r] := by
  refine ⟨h.run_chain.append (.singleton r) fun x hx y hy => ?_, h.run_sublist.append (List.Sublist.refl [r])⟩
  rw [hlast, Option.mem_some_iff] at hx
  rw [List.head?_cons, Option.mem_some_iff] at hy
  subst hx hy
  exact hadj

/-- The scan key is not part of the invariant. -/
theorem withLastKey (h : ScanInv done st) (k : Key) : ScanInv done { st with lastKey := k } :=
  ⟨h.run_ne_nil, h.run_chain, h.run_sublist, h.cache_chain, h.cache_sublist, h.cache_length, h.maxLen_cases,
    h.of_none, h.of_uncached⟩

/-- With no adjacent pair in `done ++ [r]`, `r` does not continue the run. -/
theorem not_adjacent_of_none (h : ScanInv done st) (hnone : (done ++ [r]).IsChain (¬ Adjacent · ·))
    {last : RegionInfo} (hlast : st.adjacentRegions.getLast? = some last) : ¬ Adjacent last r := by
  obtain ⟨-, -, hlast'⟩ := h.of_none hnone.left_of_append
  exact (List.isChain_append.mp hnone).2.2 last (hlast' ▸ hlast) r (by simp)

/-- The end of a run, at `r`, keeps the invariant, given the run it ends:
one of two or more ending at `r`, or the current run when `r` does not
continue it. -/
theorem finishRun {run : List RegionInfo} (h : ScanInv done st) (hne : run ≠ []) (hchain : run.IsChain Adjacent)
    (hsub : run <+ done ++ [r])
    (hcases : (run = st.adjacentRegions ++ [r] ∧ 2 ≤ run.length) ∨
      (run = st.adjacentRegions ∧ ∀ last ∈ st.adjacentRegions.getLast?, ¬ Adjacent last r)) :
    ScanInv (done ++ [r]) (Schedulers.finishRun r run st) := by
  have hsub' : done <+ done ++ [r] := List.sublist_append_left done [r]
  have hlen : 1 ≤ run.length := List.length_pos_iff.mpr hne
  obtain ⟨last, hlast⟩ := Option.isSome_iff_exists.mp (List.getLast?_isSome.mpr h.run_ne_nil)
  -- a run of two or more ending at `r` means `r` continues the run
  have hcont : run = st.adjacentRegions ++ [r] → Adjacent last r := by
    rintro rfl
    exact (List.isChain_append.mp hchain).2.2 last hlast r (by simp)
  unfold Schedulers.finishRun
  split
  · next hone =>
    -- a run of one region: the current run, which `r` does not continue
    obtain ⟨rfl, hnot⟩ : run = st.adjacentRegions ∧ ∀ last ∈ st.adjacentRegions.getLast?, ¬ Adjacent last r := by
      rcases hcases with ⟨-, h2⟩ | hc
      · omega
      · exact hc
    refine ⟨List.cons_ne_nil r [], .singleton r, List.singleton_sublist.mpr (by simp), h.cache_chain,
      h.cache_sublist.trans hsub', h.cache_length, h.maxLen_cases, fun hnone => ?_, fun hmax => ?_⟩
    · obtain ⟨hmax, -, -⟩ := h.of_none hnone.left_of_append
      exact ⟨hmax, rfl, by simp⟩
    · rcases h.of_uncached hmax with hnone | ⟨h2, -⟩
      · obtain ⟨-, -, hlast'⟩ := h.of_none hnone
        exact .inl (isChain_append_not_adjacent hnone (hlast' ▸ hlast) (hnot last hlast))
      · omega
  · split
    · next hone hlonger =>
      -- a new longest run: it becomes the cache
      refine ⟨List.cons_ne_nil r [], .singleton r, List.singleton_sublist.mpr (by simp), hchain, hsub, rfl,
        .inr (by dsimp only; omega), fun hnone => ?_, fun hmax => absurd hmax (by dsimp only; omega)⟩
      -- with no adjacent pair in `done ++ [r]` the run is the last region alone
      exfalso
      rcases hcases with ⟨hrun, -⟩ | ⟨rfl, -⟩
      · exact h.not_adjacent_of_none hnone hlast (hcont hrun)
      · exact hone (h.of_none hnone.left_of_append).2.1
    · next hone hshort =>
      -- a finished run no longer than the cache stays the current run
      refine ⟨hne, hchain, hsub, h.cache_chain, h.cache_sublist.trans hsub', h.cache_length, h.maxLen_cases,
        fun hnone => ?_, fun hmax => absurd hmax (by dsimp only; omega)⟩
      exfalso
      obtain ⟨hmax, -, -⟩ := h.of_none hnone.left_of_append
      omega

/-- A run that ends leaves nothing cached only if it was one region and
nothing was cached before. -/
theorem finishRun_maxLen_eq_zero {run : List RegionInfo} (hne : run ≠ [])
    (h : (Schedulers.finishRun r run st).maxLen = 0) : st.maxLen = 0 ∧ run.length = 1 := by
  have hlen : 1 ≤ run.length := List.length_pos_iff.mpr hne
  unfold Schedulers.finishRun at h
  split at h
  · next hone => exact ⟨h, hone⟩
  · split at h
    · next hone hlonger =>
      dsimp only at h
      omega
    · next hone hshort =>
      dsimp only at h
      omega

/-- One pass of the loop keeps the invariant. -/
theorem scanStep (h : ScanInv done st) (isLast : Bool) : ScanInv (done ++ [r]) (Schedulers.scanStep r isLast st) := by
  obtain ⟨last, hlast⟩ := Option.isSome_iff_exists.mp (List.getLast?_isSome.mpr h.run_ne_nil)
  have h' := h.withLastKey r.regionMeta.startKey
  unfold Schedulers.scanStep
  simp only [hlast]
  split
  · next hadj =>
    obtain ⟨hchain, hsub⟩ := h.run_append hlast hadj
    have hlen : 2 ≤ (st.adjacentRegions ++ [r]).length := by
      have := List.length_pos_iff.mpr h.run_ne_nil
      simp only [List.length_append, List.length_singleton]
      omega
    split
    · -- the run goes on
      refine ⟨by simp, hchain, hsub, h.cache_chain, h.cache_sublist.trans (List.sublist_append_left done [r]),
        h.cache_length, h.maxLen_cases, fun hnone => absurd hadj (h.not_adjacent_of_none hnone hlast),
        fun _ => .inr ⟨hlen, by simp⟩⟩
    · exact h'.finishRun (by simp) hchain hsub (.inl ⟨rfl, hlen⟩)
  · next hadj =>
    exact h'.finishRun h.run_ne_nil h.run_chain (h.run_sublist.trans (List.sublist_append_left done [r]))
      (.inr ⟨rfl, fun x hx => by rw [hlast, Option.mem_some_iff] at hx; exact hx ▸ hadj⟩)

/-- At the last region a run always ends, so an empty cache means no
adjacent pair at all. -/
theorem scanStep_last (h : ScanInv done st) (hmax : (Schedulers.scanStep r true st).maxLen = 0) :
    (done ++ [r]).IsChain (¬ Adjacent · ·) := by
  obtain ⟨last, hlast⟩ := Option.isSome_iff_exists.mp (List.getLast?_isSome.mpr h.run_ne_nil)
  unfold Schedulers.scanStep at hmax
  simp only [hlast, Bool.not_true, Bool.false_eq_true, if_false] at hmax
  split at hmax
  · -- `r` continues the run, which then ends with two or more regions
    obtain ⟨-, hone⟩ := finishRun_maxLen_eq_zero (by simp) hmax
    have := List.length_pos_iff.mpr h.run_ne_nil
    simp only [List.length_append, List.length_singleton] at hone
    omega
  · next hadj =>
    obtain ⟨hmax₀, hone⟩ := finishRun_maxLen_eq_zero h.run_ne_nil hmax
    rcases h.of_uncached hmax₀ with hnone | ⟨h2, -⟩
    · obtain ⟨-, -, hlast'⟩ := h.of_none hnone
      exact isChain_append_not_adjacent hnone (hlast' ▸ hlast) hadj
    · omega

/-- The whole loop keeps the invariant, and after it an empty cache means no
adjacent pair. -/
theorem scanLoop (h : ScanInv done st) (rest : List RegionInfo) :
    ScanInv (done ++ rest) (Schedulers.scanLoop rest st) ∧
      (rest ≠ [] → (Schedulers.scanLoop rest st).maxLen = 0 → (done ++ rest).IsChain (¬ Adjacent · ·)) := by
  induction rest generalizing done st with
  | nil =>
    refine ⟨?_, fun hne => absurd rfl hne⟩
    rw [List.append_nil]
    exact h
  | cons r rest ih =>
    have hstep := h.scanStep (r := r) rest.isEmpty
    obtain ⟨hinv, hlast⟩ := ih hstep
    rw [List.append_cons done r rest]
    refine ⟨hinv, fun _ hmax => ?_⟩
    cases rest with
    | nil => simpa using h.scanStep_last hmax
    | cons r' rest => exact hlast (List.cons_ne_nil r' rest) hmax

end ScanInv

/-- A scan of two or more regions caches a chain of adjacent regions taken in
order from them, of length `0` or at least `2`, empty exactly when no two
consecutive regions are adjacent, and counts its length. -/
theorem scanRegions_cacheRegions (l : BalanceAdjacentRegionScheduler) (regions : List RegionInfo)
    (hlen : 2 ≤ regions.length) :
    let l' := l.scanRegions regions
    l'.cacheRegions.IsChain Adjacent ∧ l'.cacheRegions <+ regions ∧
      (l'.cacheRegions = [] ∨ 2 ≤ l'.cacheRegions.length) ∧
      (l'.cacheRegions = [] ↔ regions.IsChain (¬ Adjacent · ·)) ∧
      l'.adjacentRegionsCount = l.adjacentRegionsCount + l'.cacheRegions.length := by
  match regions, hlen with
  | r₀ :: r₁ :: rest, _ =>
    obtain ⟨hinv, hlast⟩ := (scanInv_init r₀ l.lastKey).scanLoop (r₁ :: rest)
    simp only [BalanceAdjacentRegionScheduler.scanRegions, List.singleton_append] at hinv hlast ⊢
    refine ⟨hinv.cache_chain, hinv.cache_sublist, ?_, ⟨fun hnil => ?_, fun hnone => ?_⟩, by rw [hinv.cache_length]⟩
    · rcases hinv.maxLen_cases with h0 | h2
      · exact .inl (List.length_eq_zero_iff.mp (hinv.cache_length.trans h0))
      · exact .inr (hinv.cache_length ▸ h2)
    · exact hlast (List.cons_ne_nil r₁ rest) (hinv.cache_length ▸ congrArg List.length hnil)
    · exact List.length_eq_zero_iff.mp (hinv.cache_length.trans (hinv.of_none hnone).1)

/-! ## A longest run missed -/

/-- Region `i`, the range `[[i], [i + 1])`, with its one peer and leader on
`store`. -/
def runRegion (i : Nat) (store : UInt64) : RegionInfo :=
  ⟨⟨i.toUInt64, [Fin.ofNat 256 i], [Fin.ofNat 256 (i + 1)], ⟨1, 1⟩, [⟨i.toUInt64, store, false⟩]⟩,
    some ⟨i.toUInt64, store, false⟩, [], [], 0, 0, 0, 0⟩

/-- Seven regions in key order, each ending where the next starts, with
leaders on stores `1, 1, 2, 2, 3, 3, 3`. -/
def sevenRegions : List RegionInfo :=
  [runRegion 0 1, runRegion 1 1, runRegion 2 2, runRegion 3 2, runRegion 4 3, runRegion 5 3, runRegion 6 3]

theorem adjacent_scan_misses_longest_run :
    (∀ (l : BalanceAdjacentRegionScheduler) (regions : List RegionInfo), 2 ≤ regions.length →
      let l' := l.scanRegions regions
      l'.cacheRegions.IsChain Adjacent ∧ l'.cacheRegions <+ regions ∧
        (l'.cacheRegions = [] ∨ 2 ≤ l'.cacheRegions.length) ∧
        (l'.cacheRegions = [] ↔ regions.IsChain (¬ Adjacent · ·)) ∧
        l'.adjacentRegionsCount = l.adjacentRegionsCount + l'.cacheRegions.length) ∧
    (∀ l : BalanceAdjacentRegionScheduler,
      (l.scanRegions sevenRegions).cacheRegions = [runRegion 0 1, runRegion 1 1] ∧
      [runRegion 4 3, runRegion 5 3, runRegion 6 3] <:+: sevenRegions ∧
      [runRegion 4 3, runRegion 5 3, runRegion 6 3].IsChain Adjacent) := by
  refine ⟨scanRegions_cacheRegions, fun l => ⟨rfl, ?_, ?_⟩⟩
  · exact ⟨[runRegion 0 1, runRegion 1 1, runRegion 2 2, runRegion 3 2], [], rfl⟩
  · simp only [List.isChain_cons_cons]
    decide

end PlacementDriver.Schedulers
