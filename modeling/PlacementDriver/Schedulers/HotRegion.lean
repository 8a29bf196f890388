import PlacementDriver.Schedulers.BalanceLeader
import PlacementDriver.Schedule.OperatorCount
import PlacementDriver.Core.Statistics
import PlacementDriver.Schedulers.BalanceRegion

/-!
# The hot-region scheduler

`balanceHotRegionsScheduler` (`schedulers/hot_region.go`) spreads the regions
with the most read or write flow. A round picks a kind of flow at random and
counts, for each store, its hot regions (`calcScore`): the regions of the hot
cache at least `HotRegionLowThreshold` hot that the cluster knows, under their
leader's store (`LeaderKind`) or under each of their stores (`RegionKind`).
From the store with the most hot regions, at least two, and among those the
most flow (`selectSrcStore`), it moves a hot region's leader to one of its
followers (`balanceByLeader`) or a peer to another store (`balanceByPeer`).
The target is chosen by `selectDestStore` among the stores the filters pass:
the first with no hot region, or else one with the fewest, at least two
fewer than the source. Each move sets the scheduler's limit on hot-region
operators (`adjustBalanceLimit`).

So a move never turns the order of the two stores around: every operator of
a round takes a hot region, its leader or a peer, from the hottest store to
one with at least two fewer hot regions (`hot_region_round_moves_from_hottest_store`).
This holds for every iteration order of the map of statistics, since the
source has the most hot regions in each (`selectSrcStoreIn_spec` is about any
list of entries), and for every hot cache of fewer than `MaxInt32` records,
since no store counts more hot regions than there are records
(`length_regionsStat_calcScore_le`), so that `selectDestStore`'s first bound
is never tied.

The `float64` arithmetic is read exactly over the rationals, as in
`Core.StoreScore`, and `uint64(x)` of a non-negative `x` truncates. The random
source `h.r` is the input `HotDraws`: the draw choosing the kind, the draws of
the write loop, and the permutations `Perm(n)` of the calls, by the call's
number. `statsMedian` is the `uint64` of the median of a record's rolling
statistics. The source panics on a nil store or statistics, or an index out
of range, none of which the cluster's methods and `Perm` give here; the model
ends the call without a move there. The metrics are left out.

## Main results

* `length_regionsStat_calcScore_le`: no store counts more hot regions than
  the hot cache has records.
* `selectSrcStoreIn_spec`: the source has the most hot regions, at least two,
  and the most flow among those with as many, in any iteration order.
* `selectDestStore_spec`: the target has no hot region recorded or at least
  two fewer than the source.
* `hotMove_balanceByPeer`, `hotMove_balanceByLeader`: each move of the two
  balancing calls is a `HotMove` of its statistics.
* `hot_region_round_moves_from_hottest_store`: every operator of `Schedule`
  is a `HotMove` of one of the statistics the round computed.
-/

namespace PlacementDriver

open Metapb PlacementDriver.Core Schedule

namespace Schedule

/-- `HotRegionLowThreshold`. -/
def hotRegionLowThreshold : Int := 3

end Schedule

namespace Schedulers

/-- `core.HotRegionsStat`: the hot regions of a store. -/
structure HotRegionsStat where
  totalFlowBytes : UInt64
  regionsCount : Int
  regionsStat : List RegionStat

/-- `core.StoreHotRegionsStat`, by store id. -/
abbrev StoreHotRegionsStat := AList (fun _ : UInt64 => HotRegionsStat)

/-- `schedule.Cluster` as the hot-region scheduler sees it. -/
structure HotRegionCluster extends BalanceSchedulerCluster where
  leaderScheduleLimit : UInt64
  regionScheduleLimit : UInt64
  /-- `RegionReadStats()` -/
  regionReadStats : List RegionStat
  /-- `RegionWriteStats()` -/
  regionWriteStats : List RegionStat
  /-- `uint64(r.Stats.Median())` of a record -/
  statsMedian : RegionStat → UInt64

/-- `hotRegionLimitFactor`. -/
def hotRegionLimitFactor : ℚ := 3 / 4

/-- `hotRegionScheduleFactor`. -/
def hotRegionScheduleFactor : ℚ := 9 / 10

/-- `balanceHotRetryLimit`. -/
def balanceHotRetryLimit : Nat := 10

/-- `math.MaxInt32`. -/
def maxInt32 : Int := 2147483647

/-- `math.MaxUint64`. -/
def maxUint64 : UInt64 := 18446744073709551615

/-- `uint64(x)` of a `float64`: truncation toward zero, read modulo `2 ^ 64`
as the conversion through `int64` does below `2 ^ 63`. -/
def truncToUInt64 (x : ℚ) : UInt64 := UInt64.ofInt (truncToInt64 x)

/-- `BalanceType`. -/
inductive BalanceType
  | hotWriteRegionBalance
  | hotReadRegionBalance
deriving DecidableEq, Repr

/-- `storeStatistics`. -/
structure StoreStatistics where
  readStatAsLeader : StoreHotRegionsStat
  writeStatAsPeer : StoreHotRegionsStat
  writeStatAsLeader : StoreHotRegionsStat

/-- `balanceHotRegionsScheduler`, without its random source. -/
structure BalanceHotRegionsScheduler where
  limit : UInt64
  types : List BalanceType
  stats : StoreStatistics

/-- The draws of `h.r` in one round: `Int()` choosing the kind of flow,
`Int()` at each try of the write loop, and `Perm(n)` at each call of
`balanceByLeader` or `balanceByPeer`, by the call's number. -/
structure HotDraws where
  typeDraw : Nat
  choice : Nat → Nat
  perm : Nat → Nat → List Nat

/-- `newStoreStaticstics()`. -/
def newStoreStatistics : StoreStatistics := ⟨∅, ∅, ∅⟩

/-- `newBalanceHotRegionsScheduler(opController)`. -/
def newBalanceHotRegionsScheduler : BalanceHotRegionsScheduler :=
  ⟨1, [.hotWriteRegionBalance, .hotReadRegionBalance], newStoreStatistics⟩

/-- `newBalanceHotReadRegionsScheduler(opController)`. -/
def newBalanceHotReadRegionsScheduler : BalanceHotRegionsScheduler :=
  ⟨1, [.hotReadRegionBalance], newStoreStatistics⟩

/-- `newBalanceHotWriteRegionsScheduler(opController)`. -/
def newBalanceHotWriteRegionsScheduler : BalanceHotRegionsScheduler :=
  ⟨1, [.hotWriteRegionBalance], newStoreStatistics⟩

/-! ## The statistics -/

/-- The stores a hot region counts for: its stores, each once as the keys of
`GetStoreIds()`, or its leader's. -/
def hotStoreIds (regionInfo : RegionInfo) : ResourceKind → List UInt64
  | .regionKind => regionInfo.getStoreIds.dedup
  | .leaderKind => [regionInfo.leaderStoreId]

/-- The record `calcScore` keeps of a hot region for one store. -/
def storeRegionStat (median : RegionStat → UInt64) (r : RegionStat) (storeID : UInt64) : RegionStat :=
  { r with flowBytes := median r, storeID := storeID, stats := none }

/-- The body of the inner loop of `calcScore`: the region counted for one
store. -/
def addHotRegion (median : RegionStat → UInt64) (r : RegionStat) (stats : StoreHotRegionsStat) (storeID : UInt64) :
    StoreHotRegionsStat :=
  let storeStat := (stats.lookup storeID).getD ⟨0, 0, []⟩
  stats.insert storeID ⟨storeStat.totalFlowBytes + r.flowBytes, storeStat.regionsCount + 1,
    storeStat.regionsStat ++ [storeRegionStat median r storeID]⟩

/-- The body of the outer loop of `calcScore`: one record of the hot cache. -/
def calcScoreStep (c : HotRegionCluster) (kind : ResourceKind) (stats : StoreHotRegionsStat) (r : RegionStat) :
    StoreHotRegionsStat :=
  if r.hotDegree < hotRegionLowThreshold then stats
  else
    match c.getRegion r.regionID with
    | none => stats
    | some regionInfo => (hotStoreIds regionInfo kind).foldl (addHotRegion c.statsMedian r) stats

/-- `calcScore(items, cluster, kind)`. -/
def calcScore (c : HotRegionCluster) (items : List RegionStat) (kind : ResourceKind) : StoreHotRegionsStat :=
  items.foldl (calcScoreStep c kind) ∅

/-- A region counts for a store at most once: `hotStoreIds` has no repeats. -/
theorem nodup_hotStoreIds (regionInfo : RegionInfo) (kind : ResourceKind) : (hotStoreIds regionInfo kind).Nodup := by
  cases kind with
  | regionKind => exact List.nodup_dedup _
  | leaderKind => exact List.nodup_singleton _

/-- The inner loop of `calcScore` over stores without repeats adds at most one
record to each store: stores still ahead have at most `n`, the others at most
`n + 1`. -/
theorem length_foldl_addHotRegion_le (median : RegionStat → UInt64) (r : RegionStat) (n : Nat) :
    ∀ (L : List UInt64), L.Nodup → ∀ stats : StoreHotRegionsStat,
      (∀ k s, stats.lookup k = some s → s.regionsStat.length ≤ n + 1 ∧ (k ∈ L → s.regionsStat.length ≤ n)) →
      ∀ k s, (L.foldl (addHotRegion median r) stats).lookup k = some s → s.regionsStat.length ≤ n + 1 := by
  intro L
  induction L with
  | nil => intro _ stats h k s hk; exact (h k s hk).1
  | cons x L ih =>
    intro hnd stats h
    obtain ⟨hx, hL⟩ := List.nodup_cons.mp hnd
    refine ih hL _ fun k s hk => ?_
    simp only [addHotRegion] at hk
    by_cases hkx : k = x
    · -- the store just counted: one more record than before, which had at most `n`
      subst hkx
      rw [AList.lookup_insert] at hk
      obtain rfl := Option.some.inj hk
      have hold : ((stats.lookup k).getD ⟨0, 0, []⟩).regionsStat.length ≤ n := by
        cases hlk : stats.lookup k with
        | none => simp
        | some s0 => exact (h k s0 hlk).2 List.mem_cons_self
      refine ⟨by simp only [List.length_append, List.length_singleton]; omega, fun hk => absurd hk hx⟩
    · rw [AList.lookup_insert_ne hkx] at hk
      obtain ⟨h1, h2⟩ := h k s hk
      exact ⟨h1, fun hkL => h2 (List.mem_cons_of_mem _ hkL)⟩

/-- Each record of the hot cache adds at most one hot region to a store. -/
theorem length_foldl_calcScoreStep_le (c : HotRegionCluster) (kind : ResourceKind) :
    ∀ (items : List RegionStat) (stats : StoreHotRegionsStat) (m : Nat),
      (∀ k s, stats.lookup k = some s → s.regionsStat.length ≤ m) →
      ∀ k s, (items.foldl (calcScoreStep c kind) stats).lookup k = some s → s.regionsStat.length ≤ m + items.length := by
  intro items
  induction items with
  | nil => intro stats m h k s hk; exact h k s hk
  | cons r items ih =>
    intro stats m h
    have hstep : ∀ k s, (calcScoreStep c kind stats r).lookup k = some s → s.regionsStat.length ≤ m + 1 := by
      intro k s hk
      simp only [calcScoreStep] at hk
      split at hk
      next => exact Nat.le_succ_of_le (h k s hk)
      next =>
        split at hk
        next => exact Nat.le_succ_of_le (h k s hk)
        next regionInfo _ =>
          exact length_foldl_addHotRegion_le c.statsMedian r m _ (nodup_hotStoreIds regionInfo kind) stats
            (fun k s hk => ⟨Nat.le_succ_of_le (h k s hk), fun _ => h k s hk⟩) k s hk
    intro k s hk
    have := ih _ (m + 1) hstep k s hk
    simp only [List.length_cons]
    omega

/-- No store has more hot regions in `calcScore` than the hot cache has
records; so below `MaxInt32` records, the counts `selectDestStore` compares
stay below `MaxInt32`. -/
theorem length_regionsStat_calcScore_le (c : HotRegionCluster) (items : List RegionStat) (kind : ResourceKind)
    {k : UInt64} {s : HotRegionsStat} (hk : (calcScore c items kind).lookup k = some s) :
    s.regionsStat.length ≤ items.length := by
  have := length_foldl_calcScoreStep_le c kind items ∅ 0 (fun k s hk => by simp at hk) k s hk
  omega

/-! ## Choosing the stores -/

/-- The body of the loop of `selectSrcStore` for one store: the source so far,
with its count of hot regions and its flow. -/
def selectSrcStep (acc : UInt64 × Int × UInt64) (e : Σ _ : UInt64, HotRegionsStat) : UInt64 × Int × UInt64 :=
  let count : Int := e.2.regionsStat.length
  let flowBytes := e.2.totalFlowBytes
  if 2 ≤ count ∧ (count > acc.2.1 ∨ (count = acc.2.1 ∧ flowBytes > acc.2.2)) then (e.1, count, flowBytes) else acc

/-- The loop of `selectSrcStore` over the entries in the order `range` gives. -/
def selectSrcStoreIn (entries : List (Σ _ : UInt64, HotRegionsStat)) : UInt64 :=
  (entries.foldl selectSrcStep (0, 0, 0)).1

/-- `selectSrcStore(stats)`. -/
def selectSrcStore (stats : StoreHotRegionsStat) : UInt64 := selectSrcStoreIn stats.entries

/-- `selectDestStore(candidateStoreIDs, regionFlowBytes, srcStoreID, storesStat)`. -/
def selectDestStore (stats : StoreHotRegionsStat) (candidateStoreIDs : List UInt64) (regionFlowBytes srcStoreID : UInt64) :
    UInt64 :=
  match stats.lookup srcStoreID with
  | none => 0
  | some sr => go sr.totalFlowBytes sr.regionsStat.length candidateStoreIDs 0 maxUint64 maxInt32
where
  go (srcFlowBytes : UInt64) (srcHotRegionsCount : Int) :
      List UInt64 → UInt64 → UInt64 → Int → UInt64
    | [], destStoreID, _, _ => destStoreID
    | storeID :: rest, destStoreID, minFlowBytes, minRegionsCount =>
      match stats.lookup storeID with
      | some s =>
        if srcHotRegionsCount - s.regionsStat.length > 1 ∧ minRegionsCount > s.regionsStat.length then
          go srcFlowBytes srcHotRegionsCount rest storeID s.totalFlowBytes s.regionsStat.length
        else if minRegionsCount = s.regionsStat.length ∧ minFlowBytes > s.totalFlowBytes ∧
            truncToUInt64 ((srcFlowBytes.toNat : ℚ) * hotRegionScheduleFactor) > s.totalFlowBytes + 2 * regionFlowBytes then
          go srcFlowBytes srcHotRegionsCount rest storeID s.totalFlowBytes minRegionsCount
        else go srcFlowBytes srcHotRegionsCount rest destStoreID minFlowBytes minRegionsCount
      -- a store with no hot region is taken at once
      | none => storeID

/-- What the loop of `selectSrcStore` knows after the entries `seen`: nothing
chosen and no store with two hot regions, or a chosen store with the most hot
regions, at least two, and the most flow among those with as many. -/
def SrcInv (seen : List (Σ _ : UInt64, HotRegionsStat)) (acc : UInt64 × Int × UInt64) : Prop :=
  (acc = (0, 0, 0) ∧ ∀ e ∈ seen, e.2.regionsStat.length < 2) ∨
  ∃ s, ⟨acc.1, s⟩ ∈ seen ∧ (s.regionsStat.length : Int) = acc.2.1 ∧ s.totalFlowBytes = acc.2.2 ∧
    2 ≤ s.regionsStat.length ∧
    ∀ e ∈ seen, (e.2.regionsStat.length : Int) ≤ acc.2.1 ∧
      ((e.2.regionsStat.length : Int) = acc.2.1 → e.2.totalFlowBytes ≤ acc.2.2)

theorem srcInv_nil : SrcInv [] (0, 0, 0) := .inl ⟨rfl, by simp⟩

/-- A store that beats the incumbent, on the count or on the flow, beats every
store seen so far. -/
theorem SrcInv.replace {seen : List (Σ _ : UInt64, HotRegionsStat)} {k f : UInt64} {m : Int}
    (h : SrcInv seen (k, m, f)) (key : UInt64) {st : HotRegionsStat} (h2 : 2 ≤ (st.regionsStat.length : Int))
    (hgt : (st.regionsStat.length : Int) > m ∨ ((st.regionsStat.length : Int) = m ∧ st.totalFlowBytes > f)) :
    SrcInv (seen ++ [⟨key, st⟩]) (key, st.regionsStat.length, st.totalFlowBytes) := by
  unfold SrcInv at h ⊢
  dsimp only at h ⊢
  refine .inr ⟨st, by simp, rfl, rfl, by exact_mod_cast h2, fun e' he' => ?_⟩
  rcases List.mem_append.mp he' with he' | he'
  · rcases h with ⟨-, hlt⟩ | ⟨s, -, -, -, -, hmax⟩
    · have := hlt e' he'
      exact ⟨by omega, fun _ => by omega⟩
    · obtain ⟨hle, hflow⟩ := hmax e' he'
      rcases hgt with hgt | ⟨heq, hfgt⟩
      · exact ⟨by omega, fun _ => by omega⟩
      · refine ⟨by omega, fun heq' => ?_⟩
        have := hflow (by omega)
        rw [UInt64.le_iff_toNat_le] at this ⊢
        rw [gt_iff_lt, UInt64.lt_iff_toNat_lt] at hfgt
        omega
  · obtain rfl := List.mem_singleton.mp he'
    exact ⟨le_rfl, fun _ => UInt64.le_refl _⟩

/-- A store that does not beat the incumbent leaves `SrcInv` with it. -/
theorem SrcInv.keep {seen : List (Σ _ : UInt64, HotRegionsStat)} {k f : UInt64} {m : Int}
    (h : SrcInv seen (k, m, f)) (key : UInt64) {st : HotRegionsStat}
    (hsel : ¬(2 ≤ (st.regionsStat.length : Int) ∧
      ((st.regionsStat.length : Int) > m ∨ ((st.regionsStat.length : Int) = m ∧ st.totalFlowBytes > f)))) :
    SrcInv (seen ++ [⟨key, st⟩]) (k, m, f) := by
  unfold SrcInv at h ⊢
  dsimp only at h ⊢
  rcases h with ⟨hacc, hlt⟩ | ⟨s, hs, hc, hf, h2, hmax⟩
  · -- nothing chosen yet: the store has fewer than two hot regions
    simp only [Prod.mk.injEq] at hacc
    obtain ⟨rfl, rfl, rfl⟩ := hacc
    refine .inl ⟨rfl, fun e' he' => ?_⟩
    rcases List.mem_append.mp he' with he' | he'
    · exact hlt e' he'
    · obtain rfl := List.mem_singleton.mp he'
      dsimp only
      by_contra hge
      exact hsel ⟨by omega, .inl (by omega)⟩
  · refine .inr ⟨s, List.mem_append_left _ hs, hc, hf, h2, fun e' he' => ?_⟩
    rcases List.mem_append.mp he' with he' | he'
    · exact hmax e' he'
    · obtain rfl := List.mem_singleton.mp he'
      dsimp only
      -- the store lost to the incumbent, on the count or on the flow
      by_cases hge : 2 ≤ (st.regionsStat.length : Int)
      · refine ⟨by by_contra hlt; exact hsel ⟨hge, .inl (by omega)⟩, fun heq => ?_⟩
        rw [UInt64.le_iff_toNat_le]
        by_contra hlt
        exact hsel ⟨hge, .inr ⟨heq, by rw [gt_iff_lt, UInt64.lt_iff_toNat_lt]; omega⟩⟩
      · exact ⟨by omega, fun _ => by omega⟩

/-- One store of the loop keeps `SrcInv`. -/
theorem SrcInv.step {seen : List (Σ _ : UInt64, HotRegionsStat)} {acc : UInt64 × Int × UInt64}
    (h : SrcInv seen acc) (e : Σ _ : UInt64, HotRegionsStat) : SrcInv (seen ++ [e]) (selectSrcStep acc e) := by
  obtain ⟨k, m, f⟩ := acc
  obtain ⟨key, st⟩ := e
  simp only [selectSrcStep]
  split
  case isTrue hsel => exact h.replace key hsel.1 hsel.2
  case isFalse hsel => exact h.keep key hsel

theorem srcInv_foldl (l : List (Σ _ : UInt64, HotRegionsStat)) :
    ∀ (seen : List (Σ _ : UInt64, HotRegionsStat)) (acc : UInt64 × Int × UInt64),
      SrcInv seen acc → SrcInv (seen ++ l) (l.foldl selectSrcStep acc) := by
  induction l with
  | nil => intro seen acc h; simpa using h
  | cons e l ih =>
    intro seen acc h
    have := ih (seen ++ [e]) _ (h.step e)
    simpa using this

/-- The source of `selectSrcStore`, in any iteration order: no store has two
hot regions and the result is `0`, or it is a store with the most hot
regions, at least two, and the most flow among those with as many. -/
theorem selectSrcStoreIn_spec (entries : List (Σ _ : UInt64, HotRegionsStat)) :
    (selectSrcStoreIn entries = 0 ∧ ∀ e ∈ entries, e.2.regionsStat.length < 2) ∨
    ∃ s, ⟨selectSrcStoreIn entries, s⟩ ∈ entries ∧ 2 ≤ s.regionsStat.length ∧
      ∀ e ∈ entries, e.2.regionsStat.length ≤ s.regionsStat.length ∧
        (e.2.regionsStat.length = s.regionsStat.length → e.2.totalFlowBytes ≤ s.totalFlowBytes) := by
  have h := srcInv_foldl entries [] _ srcInv_nil
  rw [List.nil_append] at h
  rcases h with ⟨hacc, hlt⟩ | ⟨s, hs, hc, hf, h2, hmax⟩
  · exact .inl ⟨by simp [selectSrcStoreIn, hacc], hlt⟩
  · refine .inr ⟨s, hs, h2, fun e he => ?_⟩
    obtain ⟨hle, hflow⟩ := hmax e he
    refine ⟨by omega, fun heq => ?_⟩
    rw [hf]
    exact hflow (by omega)

/-- What the loop of `selectDestStore` knows of the target so far: none yet,
with the count bound still `MaxInt32`, or a candidate recorded with the
bound's count of hot regions, at least two fewer than the source. -/
def DestInv (stats : StoreHotRegionsStat) (candidates : List UInt64) (srcCount : Int) (dest : UInt64)
    (minRegionsCount : Int) : Prop :=
  (dest = 0 ∧ minRegionsCount = maxInt32) ∨
  dest ∈ candidates ∧ ∃ s, stats.lookup dest = some s ∧ (s.regionsStat.length : Int) = minRegionsCount ∧
    s.regionsStat.length + 2 ≤ srcCount

/-- The target `selectDestStore` may return. -/
def DestSpec (stats : StoreHotRegionsStat) (candidates : List UInt64) (srcCount : Int) (dest : UInt64) : Prop :=
  dest = 0 ∨ dest ∈ candidates ∧ ∀ s, stats.lookup dest = some s → s.regionsStat.length + 2 ≤ srcCount

section DestStore

variable {stats : StoreHotRegionsStat} {candidates : List UInt64} {regionFlowBytes srcStoreID : UInt64}

/-- The loop of `selectDestStore` over candidates of `candidates`; the counts
of the statistics stay below `MaxInt32`, so the first record never ties the
initial bound. -/
theorem selectDestStore_go_spec (hcount : ∀ k s, stats.lookup k = some s → (s.regionsStat.length : Int) < maxInt32)
    (srcFlowBytes : UInt64) (srcCount : Int) :
    ∀ (l : List UInt64) (dest minFlowBytes : UInt64) (minRegionsCount : Int), (∀ x ∈ l, x ∈ candidates) →
      DestInv stats candidates srcCount dest minRegionsCount →
      DestSpec stats candidates srcCount
        (selectDestStore.go stats regionFlowBytes srcFlowBytes srcCount l dest minFlowBytes minRegionsCount) := by
  intro l
  induction l with
  | nil =>
    intro dest _ _ _ hinv
    simp only [selectDestStore.go]
    rcases hinv with ⟨rfl, -⟩ | ⟨hmem, s, hs, -, hle⟩
    · exact .inl rfl
    · exact .inr ⟨hmem, fun s' hs' => by rw [hs] at hs'; cases hs'; exact hle⟩
  | cons storeID rest ih =>
    intro dest minFlowBytes minRegionsCount hl hinv
    have hmem : storeID ∈ candidates := hl storeID (by simp)
    have hrest : ∀ x ∈ rest, x ∈ candidates := fun x hx => hl x (by simp [hx])
    simp only [selectDestStore.go]
    split
    case h_1 s hs =>
      have hlt := hcount _ _ hs
      split
      case isTrue h1 =>
        -- a store with fewer hot regions, two below the source
        exact ih _ _ _ hrest (.inr ⟨hmem, s, hs, rfl, by omega⟩)
      case isFalse =>
        split
        case isTrue h2 =>
          -- as few as the target so far, which is then a real one
          obtain ⟨heq, -⟩ := h2
          rcases hinv with ⟨-, hmax⟩ | ⟨-, s', -, hc', hle'⟩
          · omega
          · exact ih _ _ _ hrest (.inr ⟨hmem, s, hs, heq.symm, by omega⟩)
        case isFalse => exact ih _ _ _ hrest hinv
    case h_2 hs =>
      exact .inr ⟨hmem, fun s hs' => by rw [hs] at hs'; cases hs'⟩

/-- The target of `selectDestStore`: none, or a candidate with no hot region
recorded or at least two fewer than the source. -/
theorem selectDestStore_spec (hcount : ∀ k s, stats.lookup k = some s → (s.regionsStat.length : Int) < maxInt32)
    {sr : HotRegionsStat} (hsrc : stats.lookup srcStoreID = some sr) :
    DestSpec stats candidates sr.regionsStat.length (selectDestStore stats candidates regionFlowBytes srcStoreID) := by
  simp only [selectDestStore, hsrc]
  exact selectDestStore_go_spec hcount _ _ candidates _ _ _ (fun _ h => h) (.inl ⟨rfl, rfl⟩)

end DestStore

namespace BalanceHotRegionsScheduler

variable (h : BalanceHotRegionsScheduler) (c : HotRegionCluster) (oc : OperatorController)

/-- `allowBalanceLeader(cluster)`. -/
def allowBalanceLeader : Bool :=
  decide (oc.operatorCount opHotRegion < h.limit.toNat) &&
    decide (oc.operatorCount opLeader < c.leaderScheduleLimit.toNat)

/-- `allowBalanceRegion(cluster)`. -/
def allowBalanceRegion : Bool :=
  decide (oc.operatorCount opHotRegion < h.limit.toNat) &&
    decide (oc.operatorCount opRegion < c.regionScheduleLimit.toNat)

/-- `IsScheduleAllowed(cluster)`. -/
def isScheduleAllowed : Bool := h.allowBalanceLeader c oc || h.allowBalanceRegion c oc

/-- `adjustBalanceLimit(storeID, storesStat)`: the source's lead over the
average count of hot regions, scaled by `hotRegionLimitFactor`, at least one. -/
def adjustBalanceLimit (storeID : UInt64) (storesStat : StoreHotRegionsStat) : BalanceHotRegionsScheduler :=
  match storesStat.lookup storeID with
  | none => h
  | some srcStoreStatistics =>
    let hotRegionTotalCount : ℚ := (storesStat.entries.map fun e => (e.2.regionsStat.length : ℚ)).sum
    let avgRegionCount := hotRegionTotalCount / storesStat.entries.length
    let limit := truncToUInt64 (((srcStoreStatistics.regionsStat.length : ℚ) - avgRegionCount) * hotRegionLimitFactor)
    { h with limit := max 1 limit }

/-- The hot regions of the source, in the order of the permutation `perm`;
an index out of range is skipped. -/
def permuted (regionsStat : List RegionStat) (perm : List Nat) : List RegionStat :=
  perm.filterMap (regionsStat[·]?)

/-- The loop of `balanceByPeer` over the source's hot regions. -/
def balanceByPeerLoop (storesStat : StoreHotRegionsStat) (srcStoreID : UInt64) :
    List RegionStat → Option (RegionInfo × Peer × Peer) × BalanceHotRegionsScheduler
  | [] => (none, h)
  | rs :: rest =>
    match c.getRegion rs.regionID with
    | none => balanceByPeerLoop storesStat srcStoreID rest
    | some srcRegion =>
      if !srcRegion.downPeers.isEmpty || !srcRegion.pendingPeers.isEmpty then
        balanceByPeerLoop storesStat srcStoreID rest
      else
        match c.getStore srcStoreID with
        | none => (none, h)
        | some srcStore =>
          let filters : List StoreFilter :=
            [.storeState ⟨false, true⟩, .excluded srcRegion.getStoreIds srcRegion.getStoreIds,
              newDistinctScoreFilter c.opt.locationLabels (c.getRegionStores srcRegion) srcStore]
          let destStoreIDs := (c.getStores.filter fun store => !filterTarget c.opt c.now store filters).map (·.getId)
          let destStoreID := selectDestStore storesStat destStoreIDs rs.flowBytes srcStoreID
          if destStoreID != 0 then
            -- the limit is set once a target is found, whatever follows
            let h := h.adjustBalanceLimit srcStoreID storesStat
            match srcRegion.getStorePeer srcStoreID with
            | none => (none, h)
            | some srcPeer =>
              match c.allocPeer destStoreID with
              | none => (none, h)
              | some destPeer => (some (srcRegion, srcPeer, destPeer), h)
          else balanceByPeerLoop storesStat srcStoreID rest

/-- `balanceByPeer(cluster, storesStat)`, with `perm` the draw of `h.r.Perm`:
the region, the peer to move and the new peer. -/
def balanceByPeer (storesStat : StoreHotRegionsStat) (perm : Nat → List Nat) :
    Option (RegionInfo × Peer × Peer) × BalanceHotRegionsScheduler :=
  if !h.allowBalanceRegion c oc then (none, h)
  else
    let srcStoreID := selectSrcStore storesStat
    if srcStoreID == 0 then (none, h)
    else
      match storesStat.lookup srcStoreID with
      | none => (none, h)
      | some srcStat =>
        h.balanceByPeerLoop c storesStat srcStoreID
          (permuted srcStat.regionsStat (perm srcStat.regionsStat.length))

/-- The stores `balanceByPeer` offers `selectDestStore` for a region and
the source store. -/
def peerTargets (region : RegionInfo) (srcStore : StoreInfo) : List UInt64 :=
  (c.getStores.filter fun store => !filterTarget c.opt c.now store
    [.storeState ⟨false, true⟩, .excluded region.getStoreIds region.getStoreIds,
      newDistinctScoreFilter c.opt.locationLabels (c.getRegionStores region) srcStore]).map (·.getId)

/-- The excluded filter keeps every store of the region out of the targets. -/
theorem not_mem_getStoreIds_of_mem_peerTargets {region : RegionInfo} {srcStore : StoreInfo} {dest : UInt64}
    (h : dest ∈ peerTargets c region srcStore) : dest ∉ region.getStoreIds := by
  obtain ⟨store, hstore, rfl⟩ := List.mem_map.mp h
  have hf := (List.mem_filter.mp hstore).2
  simp only [filterTarget, List.any_cons, List.any_nil, StoreFilter.filterTarget, Bool.or_false,
    Bool.not_or, Bool.and_eq_true, Bool.not_eq_true'] at hf
  simpa using hf.2.1

/-- What a move found by the loop of `balanceByPeer` is made of: a hot region
of the list the cluster knows, the source's peer of it, and a new peer on a
target `selectDestStore` chose among `peerTargets`. -/
theorem balanceByPeerLoop_eq_some (storesStat : StoreHotRegionsStat) (srcStoreID : UInt64) :
    ∀ {l : List RegionStat} {region : RegionInfo} {srcPeer destPeer : Peer} {h' : BalanceHotRegionsScheduler},
      h.balanceByPeerLoop c storesStat srcStoreID l = (some (region, srcPeer, destPeer), h') →
      ∃ rs ∈ l, ∃ srcStore, c.getRegion rs.regionID = some region ∧ region.getStorePeer srcStoreID = some srcPeer ∧
        selectDestStore storesStat (peerTargets c region srcStore) rs.flowBytes srcStoreID ≠ 0 ∧
        c.allocPeer (selectDestStore storesStat (peerTargets c region srcStore) rs.flowBytes srcStoreID) =
          some destPeer := by
  intro l
  induction l with
  | nil => intro region srcPeer destPeer h' hl; simp [balanceByPeerLoop] at hl
  | cons rs rest ih =>
    intro region srcPeer destPeer h' hl
    simp only [balanceByPeerLoop] at hl
    -- an unknown or unhealthy region, or one with no target, is skipped: the
    -- move is one found further on
    split at hl
    next =>
      exact List.exists_mem_cons_of_exists (ih hl)
    next srcRegion hreg =>
      split at hl
      next =>
        exact List.exists_mem_cons_of_exists (ih hl)
      next =>
        split at hl
        next => cases hl
        next srcStore hstore =>
          split at hl
          next hdest =>
            split at hl
            next => cases hl
            next srcPeer' hpeer =>
              split at hl
              next => cases hl
              next destPeer' halloc =>
                simp only [Prod.mk.injEq, Option.some.injEq] at hl
                obtain ⟨⟨rfl, rfl, rfl⟩, -⟩ := hl
                exact ⟨rs, List.mem_cons_self, srcStore, hreg, hpeer, by simpa [peerTargets] using hdest, halloc⟩
          next =>
            exact List.exists_mem_cons_of_exists (ih hl)

/-- A hot region the loop of `balanceByPeer` looks at is one of the source's. -/
theorem mem_of_mem_permuted {regionsStat : List RegionStat} {perm : List Nat} {rs : RegionStat}
    (h : rs ∈ permuted regionsStat perm) : rs ∈ regionsStat := by
  obtain ⟨i, -, hi⟩ := List.mem_filterMap.mp h
  exact List.mem_of_getElem? hi

/-- The loop of `balanceByLeader` over the source's hot regions. -/
def balanceByLeaderLoop (storesStat : StoreHotRegionsStat) (srcStoreID : UInt64) :
    List RegionStat → Option (RegionInfo × Peer) × BalanceHotRegionsScheduler
  | [] => (none, h)
  | rs :: rest =>
    match c.getRegion rs.regionID with
    | none => balanceByLeaderLoop storesStat srcStoreID rest
    | some srcRegion =>
      if !srcRegion.downPeers.isEmpty || !srcRegion.pendingPeers.isEmpty then
        balanceByLeaderLoop storesStat srcStoreID rest
      else
        let filters : List StoreFilter := [.storeState ⟨true, false⟩]
        let candidateStoreIDs :=
          ((c.getFollowerStores srcRegion).filter fun store => !filterTarget c.opt c.now store filters).map (·.getId)
        if candidateStoreIDs.isEmpty then balanceByLeaderLoop storesStat srcStoreID rest
        else
          let destStoreID := selectDestStore storesStat candidateStoreIDs rs.flowBytes srcStoreID
          if destStoreID == 0 then balanceByLeaderLoop storesStat srcStoreID rest
          else
            match srcRegion.getStoreVoter destStoreID with
            | some destPeer => (some (srcRegion, destPeer), h.adjustBalanceLimit srcStoreID storesStat)
            | none => balanceByLeaderLoop storesStat srcStoreID rest

/-- `balanceByLeader(cluster, storesStat)`, with `perm` the draw of
`h.r.Perm`: the region and the follower to take the leader. -/
def balanceByLeader (storesStat : StoreHotRegionsStat) (perm : Nat → List Nat) :
    Option (RegionInfo × Peer) × BalanceHotRegionsScheduler :=
  if !h.allowBalanceLeader c oc then (none, h)
  else
    let srcStoreID := selectSrcStore storesStat
    if srcStoreID == 0 then (none, h)
    else
      match storesStat.lookup srcStoreID with
      | none => (none, h)
      | some srcStat =>
        h.balanceByLeaderLoop c storesStat srcStoreID
          (permuted srcStat.regionsStat (perm srcStat.regionsStat.length))

/-- The leader transfer of a hot region. -/
def transferHotLeader (desc : String) (srcRegion : RegionInfo) (newLeader : Peer) : Operator :=
  newOperator desc srcRegion.getID srcRegion.getRegionEpoch (opHotRegion ||| opLeader)
    [.transferLeader srcRegion.leaderStoreId newLeader.storeId] c.now

/-- The peer move of a hot region. -/
def moveHotRegion (desc : String) (srcRegion : RegionInfo) (srcPeer destPeer : Peer) : Operator :=
  createMovePeerOperator desc c.toCluster srcRegion opHotRegion srcPeer.storeId destPeer.storeId destPeer.id c.now

/-- `balanceHotReadRegions(cluster)`: a leader move, or else a peer move, both
chosen on the read statistics of the leaders. -/
def balanceHotReadRegions (draws : HotDraws) : List Operator × BalanceHotRegionsScheduler :=
  match h.balanceByLeader c oc h.stats.readStatAsLeader (draws.perm 0) with
  | (some (srcRegion, newLeader), h) => ([transferHotLeader c "transferHotReadLeader" srcRegion newLeader], h)
  | (none, h) =>
    match h.balanceByPeer c oc h.stats.readStatAsLeader (draws.perm 1) with
    | (some (srcRegion, srcPeer, destPeer), h) => ([moveHotRegion c "moveHotReadRegion" srcRegion srcPeer destPeer], h)
    | (none, h) => ([], h)

/-- The loop of `balanceHotWriteRegions` over the tries numbered `tries`; the
scheduler is threaded through, as a failed try may have set its limit. -/
def balanceHotWriteLoop (draws : HotDraws) :
    BalanceHotRegionsScheduler → List Nat → List Operator × BalanceHotRegionsScheduler
  | h, [] => ([], h)
  | h, i :: rest =>
    if draws.choice i % 2 = 0 then
      match h.balanceByPeer c oc h.stats.writeStatAsPeer (draws.perm i) with
      | (some (srcRegion, srcPeer, destPeer), h) => ([moveHotRegion c "moveHotWriteRegion" srcRegion srcPeer destPeer], h)
      | (none, h) => balanceHotWriteLoop draws h rest
    else
      match h.balanceByLeader c oc h.stats.writeStatAsLeader (draws.perm i) with
      | (some (srcRegion, newLeader), h) => ([transferHotLeader c "transferHotWriteLeader" srcRegion newLeader], h)
      | (none, h) => balanceHotWriteLoop draws h rest

/-- `balanceHotWriteRegions(cluster)`. -/
def balanceHotWriteRegions (draws : HotDraws) : List Operator × BalanceHotRegionsScheduler :=
  balanceHotWriteLoop c oc draws h (List.range balanceHotRetryLimit)

/-- `dispatch(typ, cluster)`: the statistics of the kind are computed afresh
and kept. -/
def dispatch (typ : BalanceType) (draws : HotDraws) : List Operator × BalanceHotRegionsScheduler :=
  match typ with
  | .hotReadRegionBalance =>
    let h := { h with stats := { h.stats with readStatAsLeader := calcScore c c.regionReadStats .leaderKind } }
    h.balanceHotReadRegions c oc draws
  | .hotWriteRegionBalance =>
    let h := { h with stats := { h.stats with
      writeStatAsLeader := calcScore c c.regionWriteStats .leaderKind
      writeStatAsPeer := calcScore c c.regionWriteStats .regionKind } }
    h.balanceHotWriteRegions c oc draws

/-- `Schedule(cluster)`: `types[r.Int()%len(types)]`, which panics on an
empty `types` that no constructor builds. -/
def schedule (draws : HotDraws) : List Operator × BalanceHotRegionsScheduler :=
  match h.types[draws.typeDraw % h.types.length]? with
  | some typ => h.dispatch c oc typ draws
  | none => ([], h)

/-! ## What a round moves -/

/-- A move of a hot region from the store `selectSrcStore` picks in `stats`,
one with the most hot regions and at least two, to a store with none recorded
or at least two fewer: the leader to the voter there, or a new peer on a store
without one. -/
def HotMove (stats : StoreHotRegionsStat) (op : Operator) : Prop :=
  ∃ srcStat region dest, stats.lookup (selectSrcStore stats) = some srcStat ∧ 2 ≤ srcStat.regionsStat.length ∧
    (∀ e ∈ stats.entries, e.2.regionsStat.length ≤ srcStat.regionsStat.length) ∧
    (∃ rs ∈ srcStat.regionsStat, c.getRegion rs.regionID = some region) ∧
    (∀ s, stats.lookup dest = some s → s.regionsStat.length + 2 ≤ srcStat.regionsStat.length) ∧
    ((∃ desc newLeader, region.getStoreVoter dest = some newLeader ∧ newLeader.storeId = dest ∧
        op = transferHotLeader c desc region newLeader) ∨
      ∃ desc srcPeer destPeer, region.getStorePeer (selectSrcStore stats) = some srcPeer ∧
        c.allocPeer dest = some destPeer ∧ dest ∉ region.getStoreIds ∧ op = moveHotRegion c desc region srcPeer destPeer)

/-- The source `balanceByPeer` and `balanceByLeader` move from, once found. -/
theorem selectSrcStore_spec {stats : StoreHotRegionsStat} {srcStat : HotRegionsStat}
    (h0 : selectSrcStore stats ≠ 0) (hsrc : stats.lookup (selectSrcStore stats) = some srcStat) :
    2 ≤ srcStat.regionsStat.length ∧ ∀ e ∈ stats.entries, e.2.regionsStat.length ≤ srcStat.regionsStat.length := by
  obtain ⟨h0', -⟩ | ⟨s, hs, h2, hmax⟩ := selectSrcStoreIn_spec stats.entries
  · exact absurd h0' h0
  have hss : s = srcStat := by
    have := AList.mem_lookup_iff.mpr hs
    rw [selectSrcStore] at hsrc
    rw [hsrc] at this
    exact (Option.some.inj this).symm
  subst hss
  exact ⟨h2, fun e he => (hmax e he).1⟩

/-- Every move `balanceByPeer` returns is a `HotMove` of its statistics. -/
theorem hotMove_balanceByPeer {stats : StoreHotRegionsStat} {perm : Nat → List Nat}
    (hcount : ∀ k s, stats.lookup k = some s → (s.regionsStat.length : Int) < maxInt32)
    {region : RegionInfo} {srcPeer destPeer : Peer}
    (hmove : (h.balanceByPeer c oc stats perm).1 = some (region, srcPeer, destPeer)) (desc : String) :
    HotMove c stats (moveHotRegion c desc region srcPeer destPeer) := by
  simp only [balanceByPeer] at hmove
  split at hmove
  next => simp at hmove
  next =>
    split at hmove
    next => simp at hmove
    next hsrc0 =>
      split at hmove
      next => simp at hmove
      next srcStat hsrc =>
        obtain ⟨rs, hrs, srcStore, hreg, hpeer, hdest, halloc⟩ :=
          balanceByPeerLoop_eq_some h c stats _ (Prod.ext hmove rfl)
        obtain ⟨h2, hmax⟩ := selectSrcStore_spec (by simpa using hsrc0) hsrc
        -- the target: a candidate of `peerTargets` with at least two fewer
        have hspec : DestSpec stats (peerTargets c region srcStore) srcStat.regionsStat.length
            (selectDestStore stats (peerTargets c region srcStore) rs.flowBytes (selectSrcStore stats)) :=
          selectDestStore_spec hcount hsrc
        rcases hspec with hzero | ⟨hmem, hfewer⟩
        · exact absurd hzero hdest
        refine ⟨srcStat, region, _, hsrc, h2, hmax, ⟨rs, mem_of_mem_permuted hrs, hreg⟩, fun s hs => ?_,
          .inr ⟨desc, srcPeer, destPeer, hpeer, halloc, not_mem_getStoreIds_of_mem_peerTargets c hmem, rfl⟩⟩
        have := hfewer s hs
        omega

/-- The stores `balanceByLeader` offers `selectDestStore` for a region: the
stores of its followers that may take a leader. -/
def leaderTargets (region : RegionInfo) : List UInt64 :=
  ((c.getFollowerStores region).filter fun store => !filterTarget c.opt c.now store [.storeState ⟨true, false⟩]).map
    (·.getId)

/-- What a move found by the loop of `balanceByLeader` is made of: a hot region
of the list the cluster knows, and its voter on the target `selectDestStore`
chose among `leaderTargets`. -/
theorem balanceByLeaderLoop_eq_some (storesStat : StoreHotRegionsStat) (srcStoreID : UInt64) :
    ∀ {l : List RegionStat} {region : RegionInfo} {destPeer : Peer} {h' : BalanceHotRegionsScheduler},
      h.balanceByLeaderLoop c storesStat srcStoreID l = (some (region, destPeer), h') →
      ∃ rs ∈ l, c.getRegion rs.regionID = some region ∧
        selectDestStore storesStat (leaderTargets c region) rs.flowBytes srcStoreID ≠ 0 ∧
        region.getStoreVoter (selectDestStore storesStat (leaderTargets c region) rs.flowBytes srcStoreID) =
          some destPeer := by
  intro l
  induction l with
  | nil => intro region destPeer h' hl; simp [balanceByLeaderLoop] at hl
  | cons rs rest ih =>
    intro region destPeer h' hl
    simp only [balanceByLeaderLoop] at hl
    -- an unknown or unhealthy region, one without candidates or target, or a
    -- target without a voter, is skipped: the move is one found further on
    split at hl
    next => exact List.exists_mem_cons_of_exists (ih hl)
    next srcRegion hreg =>
      split at hl
      next => exact List.exists_mem_cons_of_exists (ih hl)
      next =>
        split at hl
        next => exact List.exists_mem_cons_of_exists (ih hl)
        next =>
          split at hl
          next => exact List.exists_mem_cons_of_exists (ih hl)
          next hdest =>
            split at hl
            next destPeer' hvoter =>
              simp only [Prod.mk.injEq, Option.some.injEq] at hl
              obtain ⟨⟨rfl, rfl⟩, -⟩ := hl
              exact ⟨rs, List.mem_cons_self, hreg, by simpa [leaderTargets] using hdest,
                by simpa [leaderTargets] using hvoter⟩
            next => exact List.exists_mem_cons_of_exists (ih hl)

/-- Every leader `balanceByLeader` moves makes a `HotMove` of its statistics. -/
theorem hotMove_balanceByLeader {stats : StoreHotRegionsStat} {perm : Nat → List Nat}
    (hcount : ∀ k s, stats.lookup k = some s → (s.regionsStat.length : Int) < maxInt32)
    {region : RegionInfo} {newLeader : Peer}
    (hmove : (h.balanceByLeader c oc stats perm).1 = some (region, newLeader)) (desc : String) :
    HotMove c stats (transferHotLeader c desc region newLeader) := by
  simp only [balanceByLeader] at hmove
  split at hmove
  next => simp at hmove
  next =>
    split at hmove
    next => simp at hmove
    next hsrc0 =>
      split at hmove
      next => simp at hmove
      next srcStat hsrc =>
        obtain ⟨rs, hrs, hreg, hdest, hvoter⟩ := balanceByLeaderLoop_eq_some h c stats _ (Prod.ext hmove rfl)
        obtain ⟨h2, hmax⟩ := selectSrcStore_spec (by simpa using hsrc0) hsrc
        have hspec : DestSpec stats (leaderTargets c region) srcStat.regionsStat.length
            (selectDestStore stats (leaderTargets c region) rs.flowBytes (selectSrcStore stats)) :=
          selectDestStore_spec hcount hsrc
        rcases hspec with hzero | ⟨-, hfewer⟩
        · exact absurd hzero hdest
        -- the voter `GetStoreVoter` finds is on the target
        have hid : newLeader.storeId =
            selectDestStore stats (leaderTargets c region) rs.flowBytes (selectSrcStore stats) := by
          simpa [RegionInfo.getStoreVoter] using List.find?_some hvoter
        refine ⟨srcStat, region, _, hsrc, h2, hmax, ⟨rs, mem_of_mem_permuted hrs, hreg⟩, fun s hs => ?_,
          .inl ⟨desc, newLeader, hvoter, hid, rfl⟩⟩
        have := hfewer s hs
        omega

theorem stats_adjustBalanceLimit (storeID : UInt64) (storesStat : StoreHotRegionsStat) :
    (h.adjustBalanceLimit storeID storesStat).stats = h.stats := by
  unfold adjustBalanceLimit
  split <;> rfl

/-- A call of `balanceByPeer` changes at most the limit of the scheduler. -/
theorem stats_balanceByPeer (storesStat : StoreHotRegionsStat) (perm : Nat → List Nat) :
    (h.balanceByPeer c oc storesStat perm).2.stats = h.stats := by
  have hloop : ∀ srcStoreID l, (h.balanceByPeerLoop c storesStat srcStoreID l).2.stats = h.stats := by
    intro srcStoreID l
    induction l with
    | nil => rfl
    | cons rs rest ih =>
      simp only [balanceByPeerLoop]
      repeat' split
      all_goals simp [ih, stats_adjustBalanceLimit]
  simp only [balanceByPeer]
  repeat' split
  all_goals simp [hloop]

/-- A call of `balanceByLeader` changes at most the limit of the scheduler. -/
theorem stats_balanceByLeader (storesStat : StoreHotRegionsStat) (perm : Nat → List Nat) :
    (h.balanceByLeader c oc storesStat perm).2.stats = h.stats := by
  have hloop : ∀ srcStoreID l, (h.balanceByLeaderLoop c storesStat srcStoreID l).2.stats = h.stats := by
    intro srcStoreID l
    induction l with
    | nil => rfl
    | cons rs rest ih =>
      simp only [balanceByLeaderLoop]
      repeat' split
      all_goals simp [ih, stats_adjustBalanceLimit]
  simp only [balanceByLeader]
  repeat' split
  all_goals simp [hloop]

/-- Every operator of `balanceHotReadRegions` is a `HotMove` of the read
statistics of the leaders. -/
theorem hotMove_balanceHotReadRegions (draws : HotDraws)
    (hcount : ∀ k s, h.stats.readStatAsLeader.lookup k = some s → (s.regionsStat.length : Int) < maxInt32)
    {op : Operator} (hop : op ∈ (h.balanceHotReadRegions c oc draws).1) : HotMove c h.stats.readStatAsLeader op := by
  simp only [balanceHotReadRegions] at hop
  split at hop
  next srcRegion newLeader h₁ hleader =>
    obtain rfl := List.mem_singleton.mp hop
    exact hotMove_balanceByLeader h c oc hcount (congrArg Prod.fst hleader) _
  next h₁ hleader =>
    -- the peer move is looked for by the scheduler the leader move returned,
    -- on the same statistics
    have hstats : h₁.stats = h.stats := by
      rw [← stats_balanceByLeader h c oc h.stats.readStatAsLeader (draws.perm 0), hleader]
    split at hop
    next srcRegion srcPeer destPeer h₂ hpeer =>
      obtain rfl := List.mem_singleton.mp hop
      rw [hstats] at hpeer
      exact hotMove_balanceByPeer h₁ c oc hcount (congrArg Prod.fst hpeer) _
    next => simp at hop

/-- Every operator of the write loop is a `HotMove` of the write statistics,
of the peers or of the leaders; a failed try keeps the statistics. -/
theorem hotMove_balanceHotWriteLoop (draws : HotDraws) :
    ∀ (l : List Nat) (h : BalanceHotRegionsScheduler),
      (∀ k s, h.stats.writeStatAsPeer.lookup k = some s → (s.regionsStat.length : Int) < maxInt32) →
      (∀ k s, h.stats.writeStatAsLeader.lookup k = some s → (s.regionsStat.length : Int) < maxInt32) →
      ∀ {op : Operator}, op ∈ (balanceHotWriteLoop c oc draws h l).1 →
        HotMove c h.stats.writeStatAsPeer op ∨ HotMove c h.stats.writeStatAsLeader op := by
  intro l
  induction l with
  | nil => intro h _ _ op hop; simp [balanceHotWriteLoop] at hop
  | cons i rest ih =>
    intro h hpeer hleader op hop
    simp only [balanceHotWriteLoop] at hop
    split at hop
    next =>
      split at hop
      next srcRegion srcPeer destPeer h₁ hmove =>
        obtain rfl := List.mem_singleton.mp hop
        exact .inl (hotMove_balanceByPeer h c oc hpeer (congrArg Prod.fst hmove) _)
      next h₁ hmove =>
        have hstats : h₁.stats = h.stats := by
          rw [← stats_balanceByPeer h c oc h.stats.writeStatAsPeer (draws.perm i), hmove]
        rw [← hstats] at hpeer hleader ⊢
        exact ih h₁ hpeer hleader hop
    next =>
      split at hop
      next srcRegion newLeader h₁ hmove =>
        obtain rfl := List.mem_singleton.mp hop
        exact .inr (hotMove_balanceByLeader h c oc hleader (congrArg Prod.fst hmove) _)
      next h₁ hmove =>
        have hstats : h₁.stats = h.stats := by
          rw [← stats_balanceByLeader h c oc h.stats.writeStatAsLeader (draws.perm i), hmove]
        rw [← hstats] at hpeer hleader ⊢
        exact ih h₁ hpeer hleader hop

/-- Every operator of a round of the hot-region scheduler moves a hot region,
its leader or a peer, from the store with the most hot regions (at least two)
in the statistics the round computed to a store with none recorded or at least
two fewer, when the hot cache holds fewer than `MaxInt32` records of each
kind. -/
theorem hot_region_round_moves_from_hottest_store (draws : HotDraws)
    (hread : (c.regionReadStats.length : Int) < maxInt32) (hwrite : (c.regionWriteStats.length : Int) < maxInt32)
    {op : Operator} (hop : op ∈ (h.schedule c oc draws).1) :
    HotMove c (calcScore c c.regionReadStats .leaderKind) op ∨
      HotMove c (calcScore c c.regionWriteStats .leaderKind) op ∨
      HotMove c (calcScore c c.regionWriteStats .regionKind) op := by
  -- the counts of every statistics the round computes stay below `MaxInt32`
  have hcount : ∀ items kind, (items.length : Int) < maxInt32 →
      ∀ k s, (calcScore c items kind).lookup k = some s → (s.regionsStat.length : Int) < maxInt32 := by
    intro items kind hlen k s hk
    have := length_regionsStat_calcScore_le c items kind hk
    omega
  simp only [schedule] at hop
  split at hop
  next typ _ =>
    cases typ with
    | hotReadRegionBalance =>
      simp only [dispatch] at hop
      exact .inl (hotMove_balanceHotReadRegions _ c oc draws (hcount _ _ hread) hop)
    | hotWriteRegionBalance =>
      simp only [dispatch, balanceHotWriteRegions] at hop
      rcases hotMove_balanceHotWriteLoop c oc draws _ _ (hcount _ _ hwrite) (hcount _ _ hwrite) hop with hm | hm
      · exact .inr (.inr hm)
      · exact .inr (.inl hm)
  next => simp at hop

/-- A second region on the stores of `movedRegion`, led from store 1. -/
def hotRegion9 : RegionInfo :=
  { newRegionInfo ⟨9, [], [], ⟨1, 1⟩, [⟨91, 1, false⟩, ⟨92, 2, false⟩, ⟨93, 3, false⟩]⟩ (some ⟨91, 1, false⟩) with
    approximateSize := 10 }

/-- The cluster of `BalanceRegion`'s example with `hotRegion9` too, both
regions hot for writes. -/
def hotCluster : HotRegionCluster :=
  { toBalanceSchedulerCluster :=
      { BalanceRegionScheduler.regionCluster.toBalanceSchedulerCluster with
        getRegion := fun id =>
          if id = 8 then some BalanceRegionScheduler.movedRegion else if id = 9 then some hotRegion9 else none }
    leaderScheduleLimit := 4
    regionScheduleLimit := 4
    regionReadStats := []
    regionWriteStats := [⟨8, 1024, 3, 0, 1, 0, 1, none⟩, ⟨9, 1024, 3, 0, 1, 0, 1, none⟩]
    statsMedian := (·.flowBytes) }

/-- A write round that tries a peer move first, with the identity permutation. -/
def hotDraws : HotDraws := ⟨0, fun _ => 0, fun _ n => List.range n⟩

theorem hot_region_round_moves_from_hottest_store_hotCluster :
    (hotCluster.regionReadStats.length : Int) < maxInt32 ∧ (hotCluster.regionWriteStats.length : Int) < maxInt32 ∧
      (newBalanceHotWriteRegionsScheduler.schedule hotCluster OperatorController.newOperatorController hotDraws).1 =
        [moveHotRegion hotCluster "moveHotWriteRegion" BalanceRegionScheduler.movedRegion ⟨83, 3, false⟩
          ⟨84, 4, false⟩] ∧
      (HotMove hotCluster (calcScore hotCluster hotCluster.regionReadStats .leaderKind)
          (moveHotRegion hotCluster "moveHotWriteRegion" BalanceRegionScheduler.movedRegion ⟨83, 3, false⟩
            ⟨84, 4, false⟩) ∨
        HotMove hotCluster (calcScore hotCluster hotCluster.regionWriteStats .leaderKind)
          (moveHotRegion hotCluster "moveHotWriteRegion" BalanceRegionScheduler.movedRegion ⟨83, 3, false⟩
            ⟨84, 4, false⟩) ∨
        HotMove hotCluster (calcScore hotCluster hotCluster.regionWriteStats .regionKind)
          (moveHotRegion hotCluster "moveHotWriteRegion" BalanceRegionScheduler.movedRegion ⟨83, 3, false⟩
            ⟨84, 4, false⟩)) := by
  have hsched : (newBalanceHotWriteRegionsScheduler.schedule hotCluster OperatorController.newOperatorController
      hotDraws).1 =
        [moveHotRegion hotCluster "moveHotWriteRegion" BalanceRegionScheduler.movedRegion ⟨83, 3, false⟩
          ⟨84, 4, false⟩] := by
    decide +kernel
  have hmem : moveHotRegion hotCluster "moveHotWriteRegion" BalanceRegionScheduler.movedRegion ⟨83, 3, false⟩
      ⟨84, 4, false⟩ ∈
        (newBalanceHotWriteRegionsScheduler.schedule hotCluster OperatorController.newOperatorController hotDraws).1 := by
    rw [hsched]
    exact List.mem_singleton_self _
  exact ⟨by decide, by decide, hsched, hot_region_round_moves_from_hottest_store newBalanceHotWriteRegionsScheduler
    hotCluster OperatorController.newOperatorController hotDraws (by decide) (by decide) hmem⟩

end BalanceHotRegionsScheduler

end Schedulers

end PlacementDriver
