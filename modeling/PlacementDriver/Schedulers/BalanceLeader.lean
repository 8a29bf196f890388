import PlacementDriver.Schedule.OpInfluence
import PlacementDriver.Cache.TTL
import PlacementDriver.Verified.KeepBest
import PlacementDriver.Verified.Transfer

/-!
# The balance-leader scheduler

`balanceLeaderScheduler` (`schedulers/balance_leader.go`) moves leaders from
the store with the highest leader score to stores with low ones. Its
`BalanceSelector` (`schedule/selector.go`) picks the source, the store with
the highest score that the filters pass as a source, and the target, the one
with the lowest score they pass as a target. Up to `balanceLeaderRetryLimit`
times it draws a region led by the source and moves its leader to the
follower store with the lowest score, or draws a region with a follower on
the target and moves its leader there. `shouldBalance` guards each move. A
round that finds nothing puts both stores in the taint cache, which keeps a
store from being chosen as a source for `taintCacheTTL`; a round with no
source or target clears it.

`BalanceSchedulerCluster` is `schedule.Cluster` as these schedulers see it:
the options `shouldBalance` reads, the score fields of each store, kept by
store id in `storeScore` since the model's `StoreInfo` does not carry them,
and `RandFollowerRegion`. `Consistent` states what the cluster's methods
promise: `GetStore` returns a store of `GetStores` with the id asked for,
`RandLeaderRegion` a region the cluster knows, led by the store asked for, and
both draws regions of non-negative size. The draws of `rand` are the call
numbers of the two random methods. The metrics and the logging are left out.

A leader transfer is progress. Reading each store's leader load as its
`LeaderSize` with the operators in progress counted, the potential
`∑ load² / weight` over the stores falls by at least `r² (1/w_S + 1/w_T)` when
the new operator is counted too, where `r` is the region's size: the guard
says the source stays above the target with the region counted as moved at
least its own size (`Verified.Transfer`). So no run of balance-leader moves
of non-empty regions comes back to where it started.

## Main results

* `shouldBalance_leader_iff`: the guard is the transfer guard of
  `Verified.Transfer` on the leader loads.
* `schedule_eq_some`: what an operator of `Schedule` is made from.
* `balance_leader_lowers_leader_potential`: every operator of `Schedule`,
  counted with those in progress, does not raise the leader potential, and
  lowers it for a non-empty region.
* `tainted_stores_are_not_sources`: after a round without an operator, neither
  store is chosen as a source again within `taintCacheTTL`.
-/

namespace PlacementDriver

open Metapb PlacementDriver.Core Cache Schedule Verified.KeepBest Verified.Transfer

namespace Schedulers

/-- `schedule.Cluster` as the balance schedulers see it. -/
structure BalanceSchedulerCluster extends Cluster where
  balance : BalanceCluster
  /-- the score fields of the store with the id: `LeaderSize`, `LeaderWeight`, ... -/
  storeScore : UInt64 → StoreScoreInfo
  storeScore_id : ∀ id, (storeScore id).id = id
  /-- `RandFollowerRegion(storeID, opts...)`, at the call numbered by the last argument -/
  randFollowerRegion : UInt64 → List (RegionInfo → Bool) → Nat → Option RegionInfo

namespace BalanceSchedulerCluster

variable (c : BalanceSchedulerCluster)

/-- `GetFollowerStores(region)`: the known stores of the region's followers. -/
def getFollowerStores (region : RegionInfo) : List StoreInfo :=
  region.getFollowers.filterMap fun p => c.getStore p.storeId

/-- What the cluster's methods promise the schedulers. -/
structure Consistent : Prop where
  getStore_spec : ∀ {id s}, c.getStore id = some s → s ∈ c.getStores ∧ s.getId = id
  randLeaderRegion_spec : ∀ {id opts call region}, c.randLeaderRegion id opts call = some region →
    region.leaderStoreId = id ∧ c.getRegion region.getID = some region ∧ 0 ≤ region.approximateSize
  randFollowerRegion_spec : ∀ {id opts call region}, c.randFollowerRegion id opts call = some region →
    c.getRegion region.getID = some region ∧ 0 ≤ region.approximateSize

end BalanceSchedulerCluster

/-! ## The selector -/

/-- The filters of the balance schedulers: those of the other modules, and
`NewCacheFilter(cache)`. -/
inductive BalanceFilter
  | store (f : StoreFilter)
  | cache (c : TTLUint64)

/-- `FilterSource(opt, store)` of each filter. -/
def BalanceFilter.filterSource (opt : ScheduleOption) (now : Int) (store : StoreInfo) : BalanceFilter → Bool
  | .store f => f.filterSource opt now store
  | .cache c => TTLUint64.exists c now store.getId

/-- `FilterTarget(opt, store)` of each filter: the cache filter rejects no
target. -/
def BalanceFilter.filterTarget (opt : ScheduleOption) (now : Int) (store : StoreInfo) : BalanceFilter → Bool
  | .store f => f.filterTarget opt now store
  | .cache _ => false

/-- `BalanceSelector`. -/
structure BalanceSelector where
  kind : ResourceKind
  filters : List BalanceFilter

namespace BalanceSelector

variable (s : BalanceSelector) (c : BalanceSchedulerCluster)

/-- `ResourceScore(kind, highSpaceRatio, lowSpaceRatio, 0)` of a store. -/
def score (store : StoreInfo) : ℚ :=
  (c.storeScore store.getId).resourceScore s.kind c.balance.highSpaceRatio c.balance.lowSpaceRatio 0

/-- The stores no filter rejects as a source. -/
def sources (stores : List StoreInfo) : List StoreInfo :=
  stores.filter fun store => !s.filters.any (·.filterSource c.opt c.now store)

/-- The stores no filter rejects as a target. -/
def targets (stores : List StoreInfo) (filters : List BalanceFilter) : List StoreInfo :=
  stores.filter fun store => !(filters ++ s.filters).any (·.filterTarget c.opt c.now store)

/-- `SelectSource(opt, stores)`: the first store of highest score among those
the filters pass as a source. -/
def selectSource (stores : List StoreInfo) : Option StoreInfo :=
  ((s.sources c stores).foldl (keepBest (s.score c) fun _ score _ bestScore => decide (bestScore < score)) none).map
    Prod.fst

/-- `SelectTarget(opt, stores, filters...)`: the first store of lowest score
among those the filters pass as a target. -/
def selectTarget (stores : List StoreInfo) (filters : List BalanceFilter) : Option StoreInfo :=
  ((s.targets c stores filters).foldl (keepBest (s.score c) fun _ score _ bestScore => decide (score < bestScore))
    none).map Prod.fst

theorem selectSource_eq (stores : List StoreInfo) :
    s.selectSource c stores = (s.sources c stores).argmax (s.score c) := by
  unfold selectSource
  rw [foldl_keepBest_eq_map_argmax (s.score c) fun x b => by simp]
  cases (s.sources c stores).argmax (s.score c) <;> rfl

theorem selectTarget_eq (stores : List StoreInfo) (filters : List BalanceFilter) :
    s.selectTarget c stores filters = (s.targets c stores filters).argmin (s.score c) := by
  unfold selectTarget
  rw [foldl_keepBest_eq_map_argmin (s.score c) fun x b => by simp]
  cases (s.targets c stores filters).argmin (s.score c) <;> rfl

variable {s c}

theorem selectSource_mem {stores : List StoreInfo} {source : StoreInfo} (h : s.selectSource c stores = some source) :
    source ∈ s.sources c stores := by
  rw [selectSource_eq] at h
  exact List.argmax_mem h

theorem selectTarget_mem {stores : List StoreInfo} {filters : List BalanceFilter} {target : StoreInfo}
    (h : s.selectTarget c stores filters = some target) : target ∈ stores :=
  List.mem_of_mem_filter (List.argmin_mem ((selectTarget_eq s c stores filters).symm.trans h))

end BalanceSelector

/-! ## The scheduler -/

/-- `balanceLeaderRetryLimit`. -/
def balanceLeaderRetryLimit : Nat := 10

/-- `taintCacheGCInterval`, five seconds. -/
def taintCacheGCInterval : Int := 5 * 1000000000

/-- `taintCacheTTL`, five minutes. -/
def taintCacheTTL : Int := 5 * 60 * 1000000000

/-- `newTaintCache()`. -/
def newTaintCache : TTLUint64 := TTLUint64.newIDTTL taintCacheGCInterval taintCacheTTL

/-- `balanceLeaderScheduler`: its taint cache; the selector is built from it. -/
structure BalanceLeaderScheduler where
  taintStores : TTLUint64

/-- `newBalanceLeaderScheduler(opController)`. -/
def newBalanceLeaderScheduler : BalanceLeaderScheduler := ⟨newTaintCache⟩

namespace BalanceLeaderScheduler

variable (l : BalanceLeaderScheduler) (c : BalanceSchedulerCluster)

/-- The selector `NewBalanceLeaderScheduler` builds. -/
def selector : BalanceSelector :=
  ⟨.leaderKind, [.store (.storeState ⟨true, false⟩), .cache l.taintStores]⟩

/-- `createOperator(region, source, target, cluster, opInfluence)`. -/
def createOperator (opInfluence : OpInfluence) (region : RegionInfo) (source target : StoreInfo) : Option Operator :=
  if c.isRegionHot region.getID then none
  else if !shouldBalance c.balance (c.storeScore source.getId) (c.storeScore target.getId) region .leaderKind
      opInfluence then none
  else
    some (newOperator "balance-leader" region.getID region.getRegionEpoch (opBalance ||| opLeader)
      [.transferLeader region.leaderStoreId target.getId] c.now)

/-- `transferLeaderOut(source, cluster, opInfluence)`, at the draw `call`. -/
def transferLeaderOut (opInfluence : OpInfluence) (source : StoreInfo) (call : Nat) : Option Operator :=
  match c.randLeaderRegion source.getId [healthRegion] call with
  | none => none
  | some region =>
    match l.selector.selectTarget c (c.getFollowerStores region) [] with
    | none => none
    | some target => createOperator c opInfluence region source target

/-- `transferLeaderIn(target, cluster, opInfluence)`, at the draw `call`. -/
def transferLeaderIn (opInfluence : OpInfluence) (target : StoreInfo) (call : Nat) : Option Operator :=
  match c.randFollowerRegion target.getId [healthRegion] call with
  | none => none
  | some region =>
    match c.getStore region.leaderStoreId with
    | none => none
    | some source => createOperator c opInfluence region source target

/-- One try of the loop of `Schedule`: out of the source, then into the
target. -/
def tryTransfer (opInfluence : OpInfluence) (source target : StoreInfo) (call : Nat) : Option Operator :=
  (l.transferLeaderOut c opInfluence source call).orElse fun _ => transferLeaderIn c opInfluence target call

/-- `Schedule(cluster)`: the operators and the scheduler with its taint cache
as the round leaves it. -/
def schedule (oc : OperatorController) : List Operator × BalanceLeaderScheduler :=
  match l.selector.selectSource c c.getStores, l.selector.selectTarget c c.getStores [] with
  | some source, some target =>
    let opInfluence := oc.getOpInfluence c.getRegion c.now
    match (List.range balanceLeaderRetryLimit).findSome? (l.tryTransfer c opInfluence source target) with
    | some op => ([op], l)
    | none =>
      ([], ⟨TTLUint64.put (TTLUint64.put l.taintStores c.now source.getId) c.now target.getId⟩)
  | _, _ => ([], ⟨TTL.clear l.taintStores⟩)

end BalanceLeaderScheduler

/-! ## The leader potential -/

namespace BalanceSchedulerCluster

variable (c : BalanceSchedulerCluster)

/-- A store's leader load with the operators in progress counted: what
`LeaderScore` divides by the weight. -/
def leaderLoad (m : OpInfluence) (id : UInt64) : ℚ :=
  (((c.storeScore id).leaderSize + (m id).leaderSize : Int) : ℚ)

/-- The weight `LeaderScore` divides by. -/
def leaderWeight (id : UInt64) : ℚ := max (c.storeScore id).leaderWeight minWeight

/-- `∑ load² / weight` over the stores of the cluster. -/
def leaderPotential (m : OpInfluence) : ℚ :=
  potential (c.getStores.map StoreInfo.getId).toFinset c.leaderWeight (c.leaderLoad m)

theorem leaderWeight_pos (id : UInt64) : 0 < c.leaderWeight id :=
  lt_max_of_lt_right (by norm_num [minWeight])

/-- The guard on leaders is the transfer guard on the leader loads, with the
region counted as moved its balance size. -/
theorem shouldBalance_leader_iff (m : OpInfluence) (region : RegionInfo) (source target : StoreInfo)
    (hrange : LeaderGuardInRange c.balance (c.storeScore source.getId) (c.storeScore target.getId) region m) :
    shouldBalance c.balance (c.storeScore source.getId) (c.storeScore target.getId) region .leaderKind m = true ↔
      (c.leaderLoad m target.getId + balanceSize c.balance region) / c.leaderWeight target.getId <
        (c.leaderLoad m source.getId - balanceSize c.balance region) / c.leaderWeight source.getId := by
  rw [shouldBalance_leader_iff_of_inRange hrange]
  simp only [c.storeScore_id, leaderLoad, leaderWeight]
  push_cast
  constructor <;> intro h <;> convert h using 2 <;> ring

/-- A leader transfer between two stores moves the region's size of leader
load between them. -/
theorem leaderLoad_transferLeader (m : OpInfluence) (region : RegionInfo) {a b : UInt64} (hab : a ≠ b) :
    c.leaderLoad ((OperatorStep.transferLeader a b).influence region m) =
      transfer (c.leaderLoad m) a b region.approximateSize := by
  funext k
  -- the source loses the size, the target gains it, every other store keeps its load
  by_cases ha : k = a
  · subst ha
    rw [transfer_apply_left hab]
    simp only [leaderLoad, influence_transferLeader region m hab]
    push_cast
    ring
  · by_cases hb : k = b
    · subst hb
      rw [transfer_apply_right]
      simp only [leaderLoad, influence_transferLeader region m hab, if_neg ha]
      push_cast
      ring
    · rw [transfer_apply_of_ne ha hb]
      simp only [leaderLoad, influence_transferLeader region m hab, if_neg ha, if_neg hb]

end BalanceSchedulerCluster

namespace BalanceLeaderScheduler

variable {l : BalanceLeaderScheduler} {c : BalanceSchedulerCluster}

/-- What `createOperator` returns: a leader transfer from the region's leader
store to the target, for a region that is not hot, that the guard lets move. -/
theorem createOperator_eq_some {m : OpInfluence} {region : RegionInfo} {source target : StoreInfo} {op : Operator}
    (h : createOperator c m region source target = some op) :
    c.isRegionHot region.getID = false ∧
      shouldBalance c.balance (c.storeScore source.getId) (c.storeScore target.getId) region .leaderKind m = true ∧
      op = newOperator "balance-leader" region.getID region.getRegionEpoch (opBalance ||| opLeader)
        [.transferLeader region.leaderStoreId target.getId] c.now := by
  unfold createOperator at h
  split_ifs at h with hhot hbal
  exact ⟨by simpa using hhot, by simpa using hbal, (Option.some.inj h).symm⟩

/-- The region and stores of an operator of `Schedule`, as the cluster's
promises leave them. -/
structure Candidate (c : BalanceSchedulerCluster) (region : RegionInfo) (source target : StoreInfo) : Prop where
  source_mem : source ∈ c.getStores
  target_mem : target ∈ c.getStores
  leader : region.leaderStoreId = source.getId
  getRegion : c.getRegion region.getID = some region
  size_nonneg : 0 ≤ region.approximateSize

theorem transferLeaderOut_eq_some (hc : c.Consistent) {m : OpInfluence} {source : StoreInfo} {call : Nat}
    {op : Operator} (hsource : source ∈ c.getStores) (h : l.transferLeaderOut c m source call = some op) :
    ∃ region target, Candidate c region source target ∧ createOperator c m region source target = some op := by
  unfold transferLeaderOut at h
  cases hr : c.randLeaderRegion source.getId [healthRegion] call with
  | none => simp [hr] at h
  | some region =>
    obtain ⟨hleader, hget, hsize⟩ := hc.randLeaderRegion_spec hr
    simp only [hr] at h
    cases ht : l.selector.selectTarget c (c.getFollowerStores region) [] with
    | none => simp [ht] at h
    | some target =>
      simp only [ht] at h
      -- the target is the known store of a follower, so a store of the cluster
      obtain ⟨p, -, hp⟩ := List.mem_filterMap.mp (BalanceSelector.selectTarget_mem ht)
      exact ⟨region, target, ⟨hsource, (hc.getStore_spec hp).1, hleader, hget, hsize⟩, h⟩

theorem transferLeaderIn_eq_some (hc : c.Consistent) {m : OpInfluence} {target : StoreInfo} {call : Nat}
    {op : Operator} (htarget : target ∈ c.getStores) (h : transferLeaderIn c m target call = some op) :
    ∃ region source, Candidate c region source target ∧ createOperator c m region source target = some op := by
  unfold transferLeaderIn at h
  cases hr : c.randFollowerRegion target.getId [healthRegion] call with
  | none => simp [hr] at h
  | some region =>
    obtain ⟨hget, hsize⟩ := hc.randFollowerRegion_spec hr
    simp only [hr] at h
    cases hs : c.getStore region.leaderStoreId with
    | none => simp [hs] at h
    | some source =>
      simp only [hs] at h
      -- the source is the store of the region's leader
      obtain ⟨hmem, hid⟩ := hc.getStore_spec hs
      exact ⟨region, source, ⟨hmem, htarget, hid.symm, hget, hsize⟩, h⟩

/-- What an operator of `Schedule` is made from: a region, a source and a
target as `Candidate` says, and the influence of the operators in progress. -/
theorem schedule_eq_some (hc : c.Consistent) {oc : OperatorController} {op : Operator}
    (h : op ∈ (l.schedule c oc).1) :
    ∃ region source target, Candidate c region source target ∧
      createOperator c (oc.getOpInfluence c.getRegion c.now) region source target = some op := by
  unfold schedule at h
  cases hs : l.selector.selectSource c c.getStores with
  | none => simp [hs] at h
  | some source =>
    cases ht : l.selector.selectTarget c c.getStores [] with
    | none => simp [hs, ht] at h
    | some target =>
      have hsource : source ∈ c.getStores := List.mem_of_mem_filter (BalanceSelector.selectSource_mem hs)
      have htarget : target ∈ c.getStores := BalanceSelector.selectTarget_mem ht
      simp only [hs, ht] at h
      cases hf : (List.range balanceLeaderRetryLimit).findSome?
          (l.tryTransfer c (oc.getOpInfluence c.getRegion c.now) source target) with
      | none => simp [hf] at h
      | some op' =>
        simp only [hf, List.mem_singleton] at h
        subst h
        obtain ⟨call, -, hcall⟩ := List.exists_of_findSome?_eq_some hf
        -- the try that made the operator: out of the source, or else into the target
        unfold tryTransfer at hcall
        cases hout : l.transferLeaderOut c (oc.getOpInfluence c.getRegion c.now) source call with
        | some op'' =>
          rw [hout] at hcall
          cases hcall
          obtain ⟨region, target', hcand, hop⟩ := transferLeaderOut_eq_some hc hsource hout
          exact ⟨region, source, target', hcand, hop⟩
        | none =>
          rw [hout] at hcall
          obtain ⟨region, source', hcand, hop⟩ := transferLeaderIn_eq_some hc htarget hcall
          exact ⟨region, source', target, hcand, hop⟩

/-- Counted with the operators in progress, a leader transfer of `createOperator`
lowers the leader potential by at least `r² (1/w_S + 1/w_T)`. -/
theorem leaderPotential_createOperator (hratio : 1 ≤ c.balance.tolerantSizeRatio) {m : OpInfluence}
    {region : RegionInfo} {source target : StoreInfo} {op : Operator} (hcand : Candidate c region source target)
    (hrange : LeaderGuardInRange c.balance (c.storeScore source.getId) (c.storeScore target.getId) region m)
    (h : createOperator c m region source target = some op) :
    c.leaderPotential (op.influence m region) +
        (region.approximateSize : ℚ) ^ 2 * (1 / c.leaderWeight source.getId + 1 / c.leaderWeight target.getId) ≤
      c.leaderPotential m := by
  obtain ⟨-, hbal, rfl⟩ := createOperator_eq_some h
  rw [c.shouldBalance_leader_iff m region source target hrange] at hbal
  have hd : (region.approximateSize : ℚ) ≤ balanceSize c.balance region :=
    Int.cast_le.mpr (le_balanceSize hratio hcand.size_nonneg)
  have hr : (0 : ℚ) ≤ region.approximateSize := by exact_mod_cast hcand.size_nonneg
  -- the guard fails for one store against itself, since the balance size is not negative
  have hne : source.getId ≠ target.getId := by
    intro heq
    rw [heq] at hbal
    have hle : c.leaderLoad m target.getId - balanceSize c.balance region ≤
        c.leaderLoad m target.getId + balanceSize c.balance region := by linarith
    exact absurd hbal (not_lt.mpr (div_le_div_of_nonneg_right hle (c.leaderWeight_pos _).le))
  have hne' : region.leaderStoreId ≠ target.getId := hcand.leader ▸ hne
  -- the operator's one step is not done yet, so it counts the transfer
  have hinf : (newOperator "balance-leader" region.getID region.getRegionEpoch (opBalance ||| opLeader)
      [.transferLeader region.leaderStoreId target.getId] c.now).influence m region =
      (OperatorStep.transferLeader region.leaderStoreId target.getId).influence region m := by
    rw [influence_of_steps _ rfl]
    simp [newOperator, OperatorStep.isFinish, hne']
  have hmem : ∀ s ∈ c.getStores, s.getId ∈ (c.getStores.map StoreInfo.getId).toFinset := fun s hs =>
    List.mem_toFinset.mpr (List.mem_map_of_mem hs)
  unfold BalanceSchedulerCluster.leaderPotential
  rw [hinf, c.leaderLoad_transferLeader m region hne', hcand.leader]
  exact potential_transfer_le hne (hmem _ hcand.source_mem) (hmem _ hcand.target_mem) (c.leaderWeight_pos _)
    (c.leaderWeight_pos _) hr hd hbal

end BalanceLeaderScheduler

/-- Balance-leader makes progress: every operator of `Schedule`, counted with
the operators in progress, does not raise the leader potential of the stores,
and lowers it when the region is not empty, on a cluster whose regions and
stores keep the guard's `int64` arithmetic in range. -/
theorem balance_leader_lowers_leader_potential (c : BalanceSchedulerCluster) (hc : c.Consistent)
    (hratio : 1 ≤ c.balance.tolerantSizeRatio) (l : BalanceLeaderScheduler) (oc : OperatorController)
    (hrange : ∀ region source target, c.getRegion region.getID = some region → source ∈ c.getStores →
      target ∈ c.getStores → LeaderGuardInRange c.balance (c.storeScore source.getId) (c.storeScore target.getId)
        region (oc.getOpInfluence c.getRegion c.now))
    {op : Operator} (h : op ∈ (l.schedule c oc).1) :
    ∃ region, c.getRegion op.regionID = some region ∧
      c.leaderPotential (op.influence (oc.getOpInfluence c.getRegion c.now) region) ≤
        c.leaderPotential (oc.getOpInfluence c.getRegion c.now) ∧
      (0 < region.approximateSize →
        c.leaderPotential (op.influence (oc.getOpInfluence c.getRegion c.now) region) <
          c.leaderPotential (oc.getOpInfluence c.getRegion c.now)) := by
  obtain ⟨region, source, target, hcand, hop⟩ := BalanceLeaderScheduler.schedule_eq_some hc h
  have hle := BalanceLeaderScheduler.leaderPotential_createOperator hratio hcand
    (hrange _ _ _ hcand.getRegion hcand.source_mem hcand.target_mem) hop
  have hid : op.regionID = region.getID := by
    rw [(BalanceLeaderScheduler.createOperator_eq_some hop).2.2]
    rfl
  -- the drop is `r²` times a positive factor
  have hfactor : 0 < 1 / c.leaderWeight source.getId + 1 / c.leaderWeight target.getId := by
    have := c.leaderWeight_pos source.getId
    have := c.leaderWeight_pos target.getId
    positivity
  refine ⟨region, hid ▸ hcand.getRegion, ?_, fun hpos => ?_⟩
  · have : 0 ≤ (region.approximateSize : ℚ) ^ 2 * (1 / c.leaderWeight source.getId +
        1 / c.leaderWeight target.getId) := by positivity
    linarith
  · have hr : (0 : ℚ) < region.approximateSize := by exact_mod_cast hpos
    have : 0 < (region.approximateSize : ℚ) ^ 2 * (1 / c.leaderWeight source.getId +
        1 / c.leaderWeight target.getId) := by positivity
    linarith

/-! ## The taint cache -/

namespace BalanceLeaderScheduler

/-- A round with a source and a target that makes no operator puts both in
the taint cache. -/
theorem schedule_of_no_operator {l : BalanceLeaderScheduler} {c : BalanceSchedulerCluster} {oc : OperatorController}
    {source target : StoreInfo} (hs : l.selector.selectSource c c.getStores = some source)
    (ht : l.selector.selectTarget c c.getStores [] = some target) (hnone : (l.schedule c oc).1 = []) :
    (l.schedule c oc).2 = ⟨TTLUint64.put (TTLUint64.put l.taintStores c.now source.getId) c.now target.getId⟩ := by
  unfold schedule at hnone ⊢
  simp only [hs, ht] at hnone ⊢
  cases hf : (List.range balanceLeaderRetryLimit).findSome?
      (l.tryTransfer c (oc.getOpInfluence c.getRegion c.now) source target) with
  | none => rfl
  | some op => simp [hf] at hnone

end BalanceLeaderScheduler

/-- An id put at `now` is in the cache at every time up to `now` plus its TTL,
whatever id is put after it at the same time. -/
theorem exists_put_put (taint : TTLUint64) {now t : Int} (ht : t ≤ now + taint.ttl) {a b id : UInt64}
    (hid : id = a ∨ id = b) : TTLUint64.exists (TTLUint64.put (TTLUint64.put taint now a) now b) t id = true := by
  -- both puts write the same expiry, so whichever wrote `id` last, it has not expired
  have hlookup : ((TTLUint64.put (TTLUint64.put taint now a) now b).items.lookup id).map Prod.snd =
      some (now + taint.ttl) := by
    simp only [TTLUint64.put, TTL.put, TTL.putWithTTL]
    by_cases hb : id = b
    · subst hb
      simp
    · rw [AList.lookup_insert_ne hb]
      obtain rfl := hid.resolve_right hb
      simp
  cases h : (TTLUint64.put (TTLUint64.put taint now a) now b).items.lookup id with
  | none => simp [h] at hlookup
  | some p =>
    obtain ⟨v, e⟩ := p
    simp only [h, Option.map_some, Option.some.injEq] at hlookup
    subst hlookup
    simp [TTLUint64.exists, TTL.get, h, not_lt.mpr ht]

/-- A round that finds no operator for the stores it selected keeps both from
being chosen as a source, by any later round within the taint cache's TTL:
neither passes the source filters. -/
theorem tainted_stores_are_not_sources (l : BalanceLeaderScheduler) (c : BalanceSchedulerCluster)
    (oc : OperatorController) {source target : StoreInfo} (hs : l.selector.selectSource c c.getStores = some source)
    (ht : l.selector.selectTarget c c.getStores [] = some target) (hnone : (l.schedule c oc).1 = [])
    (c' : BalanceSchedulerCluster) (hnow : c'.now ≤ c.now + l.taintStores.ttl) (stores : List StoreInfo)
    {s : StoreInfo} (hsel : s ∈ (l.schedule c oc).2.selector.sources c' stores) :
    s.getId ≠ source.getId ∧ s.getId ≠ target.getId := by
  rw [BalanceLeaderScheduler.schedule_of_no_operator hs ht hnone] at hsel
  -- the cache filter passes `s` as a source only if its id is not in the cache
  have hcache : TTLUint64.exists (TTLUint64.put (TTLUint64.put l.taintStores c.now source.getId) c.now
      target.getId) c'.now s.getId = false := by
    have hpass := (List.mem_filter.mp hsel).2
    simp only [BalanceLeaderScheduler.selector, List.any_cons, List.any_nil,
      BalanceFilter.filterSource, Bool.or_false, Bool.not_or, Bool.and_eq_true, Bool.not_eq_true'] at hpass
    exact hpass.2
  refine ⟨fun h => ?_, fun h => ?_⟩
  · rw [exists_put_put _ hnow (.inl h)] at hcache
    cases hcache
  · rw [exists_put_put _ hnow (.inr h)] at hcache
    cases hcache

/-- A region over the whole key space with its leader on store 1 and a
follower on store 2, of size 10. -/
def leaderRegion : RegionInfo :=
  { newRegionInfo ⟨7, [], [], ⟨1, 1⟩, [⟨71, 1, false⟩, ⟨72, 2, false⟩]⟩ (some ⟨71, 1, false⟩) with
    approximateSize := 10 }

/-- Two up stores, all leaders on store 1, and `leaderRegion` the region drawn
from it. -/
def leaderCluster : BalanceSchedulerCluster where
  opt := defaultScheduleOption
  now := 0
  getStores := [upStore 1 [], upStore 2 []]
  getStore id := [upStore 1 [], upStore 2 []].find? (·.getId == id)
  getRegion id := if id = 7 then some leaderRegion else none
  randLeaderRegion id _ _ := if id = 1 then some leaderRegion else none
  getAdjacentRegions _ := (none, none)
  allocPeer _ := none
  isRaftLearnerEnabled := false
  isRegionHot _ := false
  balance := ⟨10, 1, 0, 1⟩
  storeScore id := ⟨id, if id = 1 then 100 else 0, 1, 0, 1, 0, 0, 0⟩
  storeScore_id _ := rfl
  randFollowerRegion _ _ _ := none

theorem leaderCluster_consistent : leaderCluster.Consistent where
  getStore_spec h := by
    simp only [leaderCluster] at h
    exact ⟨List.mem_of_find?_eq_some h, by simpa using List.find?_some h⟩
  randLeaderRegion_spec h := by
    simp only [leaderCluster] at h
    split_ifs at h with hid
    cases h
    exact ⟨hid.symm, rfl, by decide⟩
  randFollowerRegion_spec h := by cases h

/-- The round moves the leader of `leaderRegion` from store 1 to store 2. -/
theorem schedule_leaderCluster :
    (newBalanceLeaderScheduler.schedule leaderCluster OperatorController.newOperatorController).1 =
      [newOperator "balance-leader" 7 ⟨1, 1⟩ (opBalance ||| opLeader) [.transferLeader 1 2] 0] := by
  decide +kernel

/-- On `leaderCluster` the guard's `int64` arithmetic stays in range. -/
theorem leaderGuardInRange_leaderCluster : ∀ region source target, leaderCluster.getRegion region.getID = some region →
    source ∈ leaderCluster.getStores → target ∈ leaderCluster.getStores →
    LeaderGuardInRange leaderCluster.balance (leaderCluster.storeScore source.getId)
      (leaderCluster.storeScore target.getId) region
      (OperatorController.newOperatorController.getOpInfluence leaderCluster.getRegion leaderCluster.now) := by
  intro region source target hr hs ht
  -- the one region is `leaderRegion`, the stores are stores 1 and 2
  simp only [leaderCluster] at hr
  split_ifs at hr
  obtain rfl := Option.some.inj hr
  simp only [leaderCluster, List.mem_cons, List.not_mem_nil, or_false] at hs ht
  rcases hs with rfl | rfl <;> rcases ht with rfl | rfl <;> decide +kernel

theorem balance_leader_lowers_leader_potential_leaderCluster :
    leaderCluster.Consistent ∧ 1 ≤ leaderCluster.balance.tolerantSizeRatio ∧
      (∀ region source target, leaderCluster.getRegion region.getID = some region →
        source ∈ leaderCluster.getStores → target ∈ leaderCluster.getStores →
        LeaderGuardInRange leaderCluster.balance (leaderCluster.storeScore source.getId)
          (leaderCluster.storeScore target.getId) region
          (OperatorController.newOperatorController.getOpInfluence leaderCluster.getRegion leaderCluster.now)) ∧
      newOperator "balance-leader" 7 ⟨1, 1⟩ (opBalance ||| opLeader) [.transferLeader 1 2] 0 ∈
        (newBalanceLeaderScheduler.schedule leaderCluster OperatorController.newOperatorController).1 ∧
      ∃ region, leaderCluster.getRegion
          (newOperator "balance-leader" 7 ⟨1, 1⟩ (opBalance ||| opLeader) [.transferLeader 1 2] 0).regionID =
            some region ∧
        leaderCluster.leaderPotential ((newOperator "balance-leader" 7 ⟨1, 1⟩ (opBalance ||| opLeader)
            [.transferLeader 1 2] 0).influence
              (OperatorController.newOperatorController.getOpInfluence leaderCluster.getRegion leaderCluster.now) region) ≤
          leaderCluster.leaderPotential (OperatorController.newOperatorController.getOpInfluence leaderCluster.getRegion leaderCluster.now) ∧
        (0 < region.approximateSize →
          leaderCluster.leaderPotential ((newOperator "balance-leader" 7 ⟨1, 1⟩ (opBalance ||| opLeader)
              [.transferLeader 1 2] 0).influence
                (OperatorController.newOperatorController.getOpInfluence leaderCluster.getRegion leaderCluster.now) region) <
            leaderCluster.leaderPotential
              (OperatorController.newOperatorController.getOpInfluence leaderCluster.getRegion leaderCluster.now)) := by
  have hratio : 1 ≤ leaderCluster.balance.tolerantSizeRatio := le_refl _
  have hmem : newOperator "balance-leader" 7 ⟨1, 1⟩ (opBalance ||| opLeader) [.transferLeader 1 2] 0 ∈
      (newBalanceLeaderScheduler.schedule leaderCluster OperatorController.newOperatorController).1 := by
    rw [schedule_leaderCluster]
    exact List.mem_singleton_self _
  exact ⟨leaderCluster_consistent, hratio, leaderGuardInRange_leaderCluster, hmem,
    balance_leader_lowers_leader_potential leaderCluster leaderCluster_consistent hratio _ _
      leaderGuardInRange_leaderCluster hmem⟩

/-- `leaderCluster` with no region to draw. -/
def idleCluster : BalanceSchedulerCluster :=
  { leaderCluster with randLeaderRegion := fun _ _ _ => none }

/-- The round on `idleCluster` selects stores 1 and 2 and finds nothing. -/
theorem schedule_idleCluster :
    newBalanceLeaderScheduler.selector.selectSource idleCluster idleCluster.getStores = some (upStore 1 []) ∧
      newBalanceLeaderScheduler.selector.selectTarget idleCluster idleCluster.getStores [] = some (upStore 2 []) ∧
      (newBalanceLeaderScheduler.schedule idleCluster OperatorController.newOperatorController).1 = [] := by
  decide +kernel

theorem tainted_stores_are_not_sources_idleCluster :
    newBalanceLeaderScheduler.selector.selectSource idleCluster idleCluster.getStores = some (upStore 1 []) ∧
      newBalanceLeaderScheduler.selector.selectTarget idleCluster idleCluster.getStores [] = some (upStore 2 []) ∧
      (newBalanceLeaderScheduler.schedule idleCluster OperatorController.newOperatorController).1 = [] ∧
      idleCluster.now ≤ idleCluster.now + newBalanceLeaderScheduler.taintStores.ttl ∧
      upStore 3 [] ∈ (newBalanceLeaderScheduler.schedule idleCluster OperatorController.newOperatorController).2.selector.sources
        idleCluster [upStore 1 [], upStore 2 [], upStore 3 []] ∧
      ((upStore 3 []).getId ≠ (upStore 1 []).getId ∧ (upStore 3 []).getId ≠ (upStore 2 []).getId) := by
  obtain ⟨hs, ht, hnone⟩ := schedule_idleCluster
  have hnow : idleCluster.now ≤ idleCluster.now + newBalanceLeaderScheduler.taintStores.ttl := by
    decide +kernel
  have hsel : upStore 3 [] ∈ (newBalanceLeaderScheduler.schedule idleCluster
      OperatorController.newOperatorController).2.selector.sources idleCluster [upStore 1 [], upStore 2 [], upStore 3 []] := by
    decide +kernel
  exact ⟨hs, ht, hnone, hnow, hsel,
    tainted_stores_are_not_sources _ _ _ hs ht hnone idleCluster hnow _ hsel⟩

end Schedulers

end PlacementDriver
