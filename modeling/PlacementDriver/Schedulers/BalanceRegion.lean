import PlacementDriver.Schedulers.BalanceLeader
import PlacementDriver.Schedule.ReplicaChecker

/-!
# The balance-region scheduler

`balanceRegionScheduler` (`schedulers/balance_region.go`) moves replicas off
the store with the highest region score. Its `BalanceSelector` picks that
store among those the move-region state filter and the taint cache pass as a
source. Up to `balanceRegionRetryLimit` times it draws a region with a
follower on the source, or else one led by it, and skips a region with a
replica count other than `MaxReplicas`, a hot one, and one with no store it
could ever move to (`hasPotentialTarget`). For the others it asks the replica
checker, built on the same cluster, for the best replacement store of the
source's peer (`transferPeer`), moves the peer there if `shouldBalance` lets
it, and stops. A round in which no region had a potential target taints the
source.

The scheduler's own filter, `scoreGuard`, is a distinct score filter built on
the region's other stores: "scoreGuard guarantees that the distinct score
will not decrease". So the store a replica moves to is, against the region's
other stores, at least as well isolated as the store it leaves
(`balance_region_keeps_distinct_score`).

`BalanceRegionCluster` is the cluster as the balance schedulers and the
replica checker see it. The draws of `RandFollowerRegion` and
`RandLeaderRegion` at the `i`-th try are the call `i`. The source panics on a
nil store or peer, which the cluster's methods never return here (the stores
`GetStore` finds are those of `GetStores`, and a region drawn on a store has a
peer there); the model ends the round without an operator there. The metrics
and the logging are left out.

## Main results

* `transferPeer_eq_some`: what an operator of `transferPeer` is made of.
* `schedule_eq_some`: every operator of `Schedule` is one of `transferPeer`
  for a region drawn on the selected source.
* `balance_region_keeps_distinct_score`: the replica moves to a store of the
  cluster that holds none of the region's peers, scores no lower against the
  region's other stores than the store it leaves, and that `shouldBalance`
  lets the region move to.
-/

namespace PlacementDriver

open Metapb PlacementDriver.Core Cache Schedule

namespace Schedulers

/-- `schedule.Cluster` as the balance-region scheduler sees it: as the
balance schedulers do, and as the replica checker it builds does. -/
structure BalanceRegionCluster extends BalanceSchedulerCluster, ReplicaCluster

/-- `balanceRegionRetryLimit`. -/
def balanceRegionRetryLimit : Nat := 10

/-- `balanceRegionScheduler`: its taint cache; the selector is built from it. -/
structure BalanceRegionScheduler where
  taintStores : TTLUint64

/-- `newBalanceRegionScheduler(opController)`. -/
def newBalanceRegionScheduler : BalanceRegionScheduler := ⟨newTaintCache⟩

namespace BalanceRegionScheduler

variable (s : BalanceRegionScheduler) (c : BalanceRegionCluster)

/-- The selector `newBalanceRegionScheduler` builds. -/
def selector : BalanceSelector :=
  ⟨.regionKind, [.store (.storeState ⟨false, true⟩), .cache s.taintStores]⟩

/-- `hasPotentialTarget(cluster, region, source, opInfluence)`: a store other
than the region's, scoring no lower than the source, up, not down for longer
than `MaxStoreDownTime`, that `shouldBalance` lets the region move to. -/
def hasPotentialTarget (opInfluence : OpInfluence) (region : RegionInfo) (source : StoreInfo) : Bool :=
  let filters : List StoreFilter :=
    [.excluded [] region.getStoreIds,
      newDistinctScoreFilter c.opt.locationLabels (c.getRegionStores region) source]
  c.getStores.any fun store =>
    !filters.any (·.filterTarget c.opt c.now store) && store.isUp &&
      !decide (store.downTime c.now > c.opt.maxStoreDownTime) &&
      shouldBalance c.balance (c.storeScore source.getId) (c.storeScore store.getId) region .regionKind opInfluence

/-- `transferPeer(cluster, region, oldPeer, opInfluence)`. -/
def transferPeer (opInfluence : OpInfluence) (region : RegionInfo) (oldPeer : Peer) : Option Operator :=
  match c.getStore oldPeer.storeId with
  | none => none
  | some source =>
    let scoreGuard := newDistinctScoreFilter c.opt.locationLabels (c.getRegionStores region) source
    let checker := newReplicaChecker c.toReplicaCluster none
    let storeID := (checker.selectBestReplacementStore region oldPeer [.store scoreGuard]).1
    if storeID == 0 then none
    else
      match c.getStore storeID with
      | none => none
      | some target =>
        if !shouldBalance c.balance (c.storeScore source.getId) (c.storeScore target.getId) region .regionKind
            opInfluence then none
        else
          match c.allocPeer storeID with
          | none => none
          | some newPeer =>
            some (createMovePeerOperator "balance-region" c.toCluster region opBalance oldPeer.storeId
              newPeer.storeId newPeer.id c.now)

/-- The loop of `Schedule` over the tries numbered `calls`, `found` saying
whether a try met a region with a potential target: the operator of the first
try that makes one. -/
def tryRegions (opInfluence : OpInfluence) (source : StoreInfo) : List Nat → Bool → Option Operator × Bool
  | [], found => (none, found)
  | call :: calls, found =>
    match (c.randFollowerRegion source.getId [healthRegion] call).or
        (c.randLeaderRegion source.getId [healthRegion] call) with
    | none => tryRegions opInfluence source calls found
    | some region =>
      -- an abnormal replica count, a hot region or no potential target: the next try
      if region.getPeers.length != c.opt.maxReplicas then tryRegions opInfluence source calls found
      else if c.isRegionHot region.getID then tryRegions opInfluence source calls found
      else if !hasPotentialTarget c opInfluence region source then tryRegions opInfluence source calls found
      else
        match region.getStorePeer source.getId with
        | none => (none, true)
        | some oldPeer =>
          match transferPeer c opInfluence region oldPeer with
          | some op => (some op, true)
          | none => tryRegions opInfluence source calls true

/-- `Schedule(cluster)`: the operators and the scheduler with its taint cache
as the round leaves it. -/
def schedule (oc : OperatorController) : List Operator × BalanceRegionScheduler :=
  match s.selector.selectSource c.toBalanceSchedulerCluster c.getStores with
  | none => ([], s)
  | some source =>
    let opInfluence := oc.getOpInfluence c.getRegion c.now
    match tryRegions c opInfluence source (List.range balanceRegionRetryLimit) false with
    | (some op, _) => ([op], s)
    | (none, found) =>
      -- no region had a potential target: the source is left alone for a while
      if found then ([], s) else ([], ⟨TTLUint64.put s.taintStores c.now source.getId⟩)

/-! ## What an operator moves -/

variable {c}

/-- An operator of `transferPeer` moves the old peer's replica to a store of
the cluster with none of the region's peers, that the score guard built on
the old peer's store passes and `shouldBalance` accepts. -/
theorem transferPeer_eq_some (hc : c.Consistent) (hAlloc : ∀ s p, c.allocPeer s = some p → p.storeId = s)
    {opInfluence : OpInfluence} {region : RegionInfo} {oldPeer : Peer} {op : Operator}
    (h : transferPeer c opInfluence region oldPeer = some op) :
    ∃ source target, c.getStore oldPeer.storeId = some source ∧ target ∈ c.getStores ∧
      target.getId ∉ region.getStoreIds ∧
      (newDistinctScoreFilter c.opt.locationLabels (c.getRegionStores region) source).filterTarget c.opt c.now target =
        false ∧
      shouldBalance c.balance (c.storeScore source.getId) (c.storeScore target.getId) region .regionKind opInfluence ∧
      ∃ peerID, op = createMovePeerOperator "balance-region" c.toCluster region opBalance oldPeer.storeId target.getId
        peerID c.now := by
  unfold transferPeer at h
  cases hsource : c.getStore oldPeer.storeId with
  | none => simp [hsource] at h
  | some source =>
    simp only [hsource] at h
    set checker := newReplicaChecker c.toReplicaCluster none
    set scoreGuard := newDistinctScoreFilter c.opt.locationLabels (c.getRegionStores region) source
    by_cases hzero : (checker.selectBestReplacementStore region oldPeer [.store scoreGuard]).1 = 0
    · simp [hzero] at h
    -- the replacement is an admissible store, so the guard passes it
    obtain ⟨t, ht, hfresh, hb⟩ := ReplicaChecker.selectBestReplacementStore_eq hzero
    have hguard : scoreGuard.filterTarget c.opt c.now t = false := ht.passes (.store scoreGuard) (by simp)
    rw [hb] at hzero h
    simp only [beq_iff_eq, hzero, if_false] at h
    cases htarget : c.getStore t.getId with
    | none => simp [htarget] at h
    | some target =>
      -- the store `GetStore` finds is scored by its id, the replacement's
      obtain ⟨-, hid⟩ := hc.getStore_spec htarget
      simp only [htarget, hid] at h
      split_ifs at h with hbal
      cases halloc : c.allocPeer t.getId with
      | none => simp [halloc] at h
      | some newPeer =>
        simp only [halloc, Option.some.injEq] at h
        refine ⟨source, t, rfl, ht.mem, hfresh, hguard, by simpa using hbal, newPeer.id, ?_⟩
        rw [← h, hAlloc _ _ halloc]

theorem tryRegions_eq_some {opInfluence : OpInfluence} {source : StoreInfo} {op : Operator} :
    ∀ {calls : List Nat} {found found' : Bool}, tryRegions c opInfluence source calls found = (some op, found') →
      ∃ region oldPeer, region.getStorePeer source.getId = some oldPeer ∧
        transferPeer c opInfluence region oldPeer = some op
  | [], _, _, h => by cases h
  | call :: calls, found, found', h => by
    unfold tryRegions at h
    split at h
    · exact tryRegions_eq_some h
    · rename_i region _
      split_ifs at h
      · exact tryRegions_eq_some h
      · exact tryRegions_eq_some h
      · exact tryRegions_eq_some h
      split at h
      · cases h
      · rename_i oldPeer hpeer
        split at h
        · rename_i op' hop
          obtain ⟨rfl, -⟩ : op' = op ∧ found' = true := by simpa using h
          exact ⟨region, oldPeer, hpeer, hop⟩
        · exact tryRegions_eq_some h

/-- Every operator of `Schedule` is one `transferPeer` makes for a peer on the
selected source. -/
theorem schedule_eq_some {oc : OperatorController} {op : Operator} (h : op ∈ (s.schedule c oc).1) :
    ∃ region oldPeer, (region.getStorePeer oldPeer.storeId).isSome ∧
      transferPeer c (oc.getOpInfluence c.getRegion c.now) region oldPeer = some op := by
  unfold schedule at h
  split at h
  · simp at h
  · rename_i source _
    dsimp only at h
    split at h
    · rename_i op' found hop
      obtain rfl : op = op' := by simpa using h
      obtain ⟨region, oldPeer, hpeer, htransfer⟩ := tryRegions_eq_some hop
      obtain ⟨-, hstore⟩ := RegionInfo.getStorePeer_eq_some hpeer
      exact ⟨region, oldPeer, by rw [hstore, hpeer]; rfl, htransfer⟩
    · split at h <;> simp at h

/-- The distinct score a guard built on `source` protects: that of `source`
against the region's other stores. -/
theorem distinctScore_le_of_filterTarget {labels : List String} {stores : List StoreInfo} {source t : StoreInfo}
    {opt : ScheduleOption} {now : Int} (h : (newDistinctScoreFilter labels stores source).filterTarget opt now t = false) :
    distinctScore labels (stores.filter fun s => s.getId != source.getId) source ≤
      distinctScore labels (stores.filter fun s => s.getId != source.getId) t := by
  simpa [newDistinctScoreFilter, StoreFilter.filterTarget] using h

/-- Every operator of the balance-region scheduler moves a replica of a region
from the store of one of its peers to a store of the cluster that holds none
of the region's peers and that `shouldBalance` accepts; against the region's
other stores, the new store's distinct score is at least the old one's. -/
theorem balance_region_keeps_distinct_score (c : BalanceRegionCluster) (hc : c.Consistent)
    (hAlloc : ∀ s p, c.allocPeer s = some p → p.storeId = s) (s : BalanceRegionScheduler) (oc : OperatorController)
    {op : Operator} (h : op ∈ (s.schedule c oc).1) :
    ∃ region source target, source ∈ c.getStores ∧ (region.getStorePeer source.getId).isSome ∧
      target ∈ c.getStores ∧ target.getId ∉ region.getStoreIds ∧
      distinctScore c.opt.locationLabels ((c.getRegionStores region).filter fun s => s.getId != source.getId) source ≤
        distinctScore c.opt.locationLabels ((c.getRegionStores region).filter fun s => s.getId != source.getId) target ∧
      shouldBalance c.balance (c.storeScore source.getId) (c.storeScore target.getId) region .regionKind
        (oc.getOpInfluence c.getRegion c.now) ∧
      ∃ peerID, op = createMovePeerOperator "balance-region" c.toCluster region opBalance source.getId target.getId
        peerID c.now := by
  obtain ⟨region, oldPeer, hpeer, htransfer⟩ := schedule_eq_some s h
  obtain ⟨source, target, hsource, htarget, hfresh, hguard, hbal, peerID, rfl⟩ := transferPeer_eq_some hc hAlloc htransfer
  obtain ⟨hmem, hid⟩ := hc.getStore_spec hsource
  refine ⟨region, source, target, hmem, by rw [hid]; exact hpeer, htarget, hfresh,
    distinctScore_le_of_filterTarget hguard, hbal, peerID, by rw [hid]⟩

/-! ## A replica moved off the fullest store -/

/-- A region on stores 1, 2 and 3, led from store 1, of size 10. -/
def movedRegion : RegionInfo :=
  { newRegionInfo ⟨8, [], [], ⟨1, 1⟩, [⟨81, 1, false⟩, ⟨82, 2, false⟩, ⟨83, 3, false⟩]⟩ (some ⟨81, 1, false⟩) with
    approximateSize := 10 }

/-- The score fields of the stores: 2 GiB free of 2 GiB, and a region size of
100 on store 1 only. -/
def regionScores (id : UInt64) : StoreScoreInfo :=
  let size : Int := if id = 1 then 100 else 0
  ⟨id, 0, 1, size, 1, 2147483648, size.toNat * 1048576, 2147483648⟩

/-- Four up stores without labels, `movedRegion` the region drawn from
store 1, and new peers numbered 84. -/
def regionCluster : BalanceRegionCluster where
  opt := defaultScheduleOption
  now := 0
  getStores := [upStore 1 [], upStore 2 [], upStore 3 [], upStore 4 []]
  getStore id := [upStore 1 [], upStore 2 [], upStore 3 [], upStore 4 []].find? (·.getId == id)
  getRegion id := if id = 8 then some movedRegion else none
  randLeaderRegion id _ _ := if id = 1 then some movedRegion else none
  getAdjacentRegions _ := (none, none)
  allocPeer id := some ⟨84, id, false⟩
  isRaftLearnerEnabled := false
  isRegionHot _ := false
  balance := ⟨10, 1, 1 / 2, 4 / 5⟩
  storeScore := regionScores
  storeScore_id _ := rfl
  randFollowerRegion _ _ _ := none
  lowSpaceRatio := 0.8
  regionScore store := (regionScores store.getId).regionScore (1 / 2) (4 / 5) 0
  isMakeUpReplicaEnabled := true
  isRemoveExtraReplicaEnabled := true
  isRemoveDownReplicaEnabled := true
  isReplaceOfflineReplicaEnabled := true
  isLocationReplacementEnabled := true

theorem regionCluster_consistent : regionCluster.Consistent where
  getStore_spec h := by
    simp only [regionCluster] at h
    exact ⟨List.mem_of_find?_eq_some h, by simpa using List.find?_some h⟩
  randLeaderRegion_spec h := by
    simp only [regionCluster] at h
    split_ifs at h with hid
    cases h
    exact ⟨hid.symm, rfl, by decide⟩
  randFollowerRegion_spec h := by cases h

/-- The round moves the replica of `movedRegion` from store 1 to store 4. -/
theorem schedule_regionCluster :
    (newBalanceRegionScheduler.schedule regionCluster OperatorController.newOperatorController).1 =
      [createMovePeerOperator "balance-region" regionCluster.toCluster movedRegion opBalance 1 4 84 0] := by
  decide +kernel

theorem balance_region_keeps_distinct_score_regionCluster :
    regionCluster.Consistent ∧ (∀ s p, regionCluster.allocPeer s = some p → p.storeId = s) ∧
      createMovePeerOperator "balance-region" regionCluster.toCluster movedRegion opBalance 1 4 84 0 ∈
        (newBalanceRegionScheduler.schedule regionCluster OperatorController.newOperatorController).1 ∧
      ∃ region source target, source ∈ regionCluster.getStores ∧ (region.getStorePeer source.getId).isSome ∧
        target ∈ regionCluster.getStores ∧ target.getId ∉ region.getStoreIds ∧
        distinctScore regionCluster.opt.locationLabels
            ((regionCluster.getRegionStores region).filter fun s => s.getId != source.getId) source ≤
          distinctScore regionCluster.opt.locationLabels
            ((regionCluster.getRegionStores region).filter fun s => s.getId != source.getId) target ∧
        shouldBalance regionCluster.balance (regionCluster.storeScore source.getId)
          (regionCluster.storeScore target.getId) region .regionKind
          (OperatorController.newOperatorController.getOpInfluence regionCluster.getRegion regionCluster.now) ∧
        ∃ peerID, createMovePeerOperator "balance-region" regionCluster.toCluster movedRegion opBalance 1 4 84 0 =
          createMovePeerOperator "balance-region" regionCluster.toCluster region opBalance source.getId target.getId
            peerID regionCluster.now := by
  have hAlloc : ∀ s p, regionCluster.allocPeer s = some p → p.storeId = s := by
    intro s p h
    cases h
    rfl
  have hmem : createMovePeerOperator "balance-region" regionCluster.toCluster movedRegion opBalance 1 4 84 0 ∈
      (newBalanceRegionScheduler.schedule regionCluster OperatorController.newOperatorController).1 := by
    rw [schedule_regionCluster]
    exact List.mem_singleton_self _
  exact ⟨regionCluster_consistent, hAlloc, hmem,
    balance_region_keeps_distinct_score regionCluster regionCluster_consistent hAlloc _ _ hmem⟩

end BalanceRegionScheduler

end Schedulers

end PlacementDriver
