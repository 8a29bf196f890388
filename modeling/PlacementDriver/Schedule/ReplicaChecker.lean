import PlacementDriver.Schedule.OperatorSimulation
import PlacementDriver.Verified.KeepBest

/-!
# The replica checker

`ReplicaChecker` (`server/schedule/replica_checker.go`) looks at one region
at a time and proposes at most one operator that brings its replicas closer
to what the options ask: a peer on a down or offline store is removed or
replaced, a missing replica is made up, an extra one removed, and a replica
moved to a store that is better isolated from the others.

Stores are picked by `ReplicaSelector` (`selector.go`). Its two loops keep
the best store so far and replace it only by a strictly better one, by
`compareStoreScore`: the higher distinct score first, then the lower region
score. The loops are `Verified.KeepBest.keepBest`, and so Mathlib's
`List.argmax` and `List.argmin` for the key `storeKey` in `ℤ ×ₗ ℚ`
(`selectTarget_eq`, `selectSource_eq`). The distinct score is the `float64`
sum of `distinctScore`, rounded as the code rounds it; the region score is
read exactly over the rationals, as in `Core.StoreScore`, and is a field of
the cluster here, since the model's `StoreInfo` does not carry the sizes it
is computed from.

The filters are `ReplicaFilter`: the `StoreFilter`s of the other modules and
the stateless filters of `filters.go` the checker builds. The metrics and
the logging are left out.

## Main results

* `selectTarget_eq`, `selectSource_eq`: the selector's loops are an argmax
  and an argmin followed by the selector's own filters.
* `check_steps`: what the steps of an operator of `Check` can be: a replica
  made up on an admissible store, a peer removed for one of three reasons, or
  a peer moved to an admissible store.
* `replica_checker_adds_only_to_admissible_stores`: every peer added lands on
  a store new to the region that the filters pass.
* `replica_checker_removes_only_surplus_or_pending`: a peer is removed without
  a replacement only from a region with too many peers or voters, or when it
  is pending.
* `replica_checker_operator_runs`: carried out, an operator keeps the peers on
  distinct stores and adds, removes or replaces one store.
* `move_to_better_location_raises_distinct_score`: a move to a better location
  raises the moved replica's distinct score against the other replicas.
-/

namespace PlacementDriver

open Metapb Verified.KeepBest

namespace RegionInfo

variable (r : RegionInfo)

/-- `GetPendingPeer(peerID)`. -/
def getPendingPeer (peerID : UInt64) : Option Peer := r.pendingPeers.find? (·.id == peerID)

/-- `Clone(WithRemoveStorePeer(storeID))`: the region without its peers on
the store. -/
def withRemoveStorePeer (storeID : UInt64) : RegionInfo :=
  r.withPeers (r.getPeers.filter (·.storeId != storeID))

end RegionInfo

namespace Schedule

/-- The options and methods of `schedule.Cluster` the replica checker reads
beyond those of `Cluster`. -/
structure ReplicaCluster extends Cluster where
  /-- `GetLowSpaceRatio()` -/
  lowSpaceRatio : Float
  /-- `RegionScore(GetHighSpaceRatio(), GetLowSpaceRatio(), 0)` of each store -/
  regionScore : StoreInfo → ℚ
  isMakeUpReplicaEnabled : Bool
  isRemoveExtraReplicaEnabled : Bool
  isRemoveDownReplicaEnabled : Bool
  isReplaceOfflineReplicaEnabled : Bool
  isLocationReplacementEnabled : Bool

/-! ## Filters -/

/-- The `Filter`s the replica checker builds: a `StoreFilter`, or one of the
stateless filters of `filters.go`. -/
inductive ReplicaFilter
  | store (f : StoreFilter)
  /-- `NewStateFilter()` -/
  | state
  /-- `NewHealthFilter()` -/
  | health
  /-- `NewPendingPeerCountFilter()` -/
  | pendingPeerCount
  /-- `NewSnapshotCountFilter()` -/
  | snapshotCount
  /-- `NewStorageThresholdFilter()` -/
  | storageThreshold

namespace ReplicaFilter

variable (c : ReplicaCluster) (store : StoreInfo)

/-- `healthFilter.filter`: busy, or down for longer than `MaxStoreDownTime`. -/
def healthFilter : Bool := store.stats.isBusy || decide (store.downTime c.now > c.opt.maxStoreDownTime)

/-- `pendingPeerCountFilter.filter`; `int(...)` of the `uint64` option reads
its bits as an `int64`. -/
def pendingPeerCountFilter : Bool :=
  if c.opt.maxPendingPeerCount == 0 then false
  else decide (store.pendingPeerCount > c.opt.maxPendingPeerCount.toInt64.toInt)

/-- `snapshotCountFilter.filter`. -/
def snapshotCountFilter : Bool :=
  store.stats.sendingSnapCount.toUInt64 > c.opt.maxSnapshotCount ||
    store.stats.receivingSnapCount.toUInt64 > c.opt.maxSnapshotCount ||
    store.stats.applyingSnapCount.toUInt64 > c.opt.maxSnapshotCount

/-- `FilterSource(opt, store)` of each filter. -/
def filterSource : ReplicaFilter → Bool
  | .store f => f.filterSource c.opt c.now store
  | .state => store.isTombstone
  | .health => healthFilter c store
  | .pendingPeerCount => pendingPeerCountFilter c store
  | .snapshotCount => snapshotCountFilter c store
  | .storageThreshold => false

/-- `FilterTarget(opt, store)` of each filter. -/
def filterTarget : ReplicaFilter → Bool
  | .store f => f.filterTarget c.opt c.now store
  | .state => !store.isUp
  | .health => healthFilter c store
  | .pendingPeerCount => pendingPeerCountFilter c store
  | .snapshotCount => snapshotCountFilter c store
  | .storageThreshold => store.isLowSpace c.lowSpaceRatio

end ReplicaFilter

/-- `FilterSource(opt, store, filters)` over the replica checker's filters. -/
def replicaFilterSource (c : ReplicaCluster) (store : StoreInfo) (filters : List ReplicaFilter) : Bool :=
  filters.any (·.filterSource c store)

/-- `FilterTarget(opt, store, filters)` over the replica checker's filters. -/
def replicaFilterTarget (c : ReplicaCluster) (store : StoreInfo) (filters : List ReplicaFilter) : Bool :=
  filters.any (·.filterTarget c store)

/-! ## Selecting stores -/

/-- `compareStoreScore(opt, storeA, scoreA, storeB, scoreB)`: `1` when A is
the better store for a replica, `-1` when B is, `0` when neither. -/
def compareStoreScore (c : ReplicaCluster) (storeA : StoreInfo) (scoreA : Int) (storeB : StoreInfo)
    (scoreB : Int) : Int :=
  if scoreA > scoreB then 1
  else if scoreA < scoreB then -1
  -- with equal distinct scores, the lower region score is better
  else if c.regionScore storeA < c.regionScore storeB then 1
  else if c.regionScore storeA > c.regionScore storeB then -1
  else 0

/-- `ReplicaSelector`. -/
structure ReplicaSelector where
  regionStores : List StoreInfo
  labels : List String
  filters : List ReplicaFilter

namespace ReplicaSelector

variable (s : ReplicaSelector) (c : ReplicaCluster)

/-- `SelectSource(opt, stores)`: the first store of the least distinct score,
then of the greatest region score, unless the selector's filters reject it
as a source. -/
def selectSource (stores : List StoreInfo) : Option StoreInfo :=
  match stores.foldl (keepBest (distinctScore s.labels s.regionStores)
      fun store score best bestScore => decide (compareStoreScore c store score best bestScore < 0)) none with
  | some (best, _) => if replicaFilterSource c best s.filters then none else some best
  | none => none

/-- `SelectTarget(opt, stores, filters...)`: among the stores `filters` pass
as targets, the first of the greatest distinct score, then of the least
region score, unless the selector's filters reject it as a target. -/
def selectTarget (stores : List StoreInfo) (filters : List ReplicaFilter) : Option StoreInfo :=
  match (stores.filter fun store => !replicaFilterTarget c store filters).foldl
      (keepBest (distinctScore s.labels s.regionStores)
        fun store score best bestScore => decide (compareStoreScore c store score best bestScore > 0)) none with
  | some (best, _) => if replicaFilterTarget c best s.filters then none else some best
  | none => none

/-- The order `compareStoreScore` ranks stores by: the distinct score
against the region's stores, then the region score reversed. -/
def storeKey (store : StoreInfo) : ℤ ×ₗ ℚ := toLex (distinctScore s.labels s.regionStores store, -c.regionScore store)

end ReplicaSelector

/-- Three idle up stores and an offline one, with no labels and no regions;
every check is on but the down-peer one, and a peer with id `9` is allocated
on any store. -/
def sampleCluster : ReplicaCluster where
  toCluster := Cluster.ofRegions defaultScheduleOption 0
    [upStore 1 [], upStore 2 [], upStore 3 [], ⟨⟨4, "", .offline, [], ""⟩, ⟨false, 0, 0, 0, 4, 0, 0⟩, false, 0, 0⟩]
    RegionsInfo.newRegionsInfo (fun _ _ => 0) (fun storeId => some ⟨9, storeId, false⟩) false (fun _ => false)
  lowSpaceRatio := 0.8
  regionScore _ := 0
  isMakeUpReplicaEnabled := true
  isRemoveExtraReplicaEnabled := true
  isRemoveDownReplicaEnabled := false
  isReplaceOfflineReplicaEnabled := true
  isLocationReplacementEnabled := true

/-! ### The selector's loops -/

section Selector

variable {c : ReplicaCluster}

theorem compareStoreScore_pos_iff (a b : StoreInfo) (sa sb : Int) :
    compareStoreScore c a sa b sb > 0 ↔ toLex (sb, -c.regionScore b) < toLex (sa, -c.regionScore a) := by
  rw [Prod.Lex.toLex_lt_toLex, neg_lt_neg_iff]
  unfold compareStoreScore
  split_ifs <;> grind

theorem compareStoreScore_neg_iff (a b : StoreInfo) (sa sb : Int) :
    compareStoreScore c a sa b sb < 0 ↔ toLex (sa, -c.regionScore a) < toLex (sb, -c.regionScore b) := by
  rw [Prod.Lex.toLex_lt_toLex, neg_lt_neg_iff]
  unfold compareStoreScore
  split_ifs <;> grind

namespace ReplicaSelector

variable (s : ReplicaSelector) (c)

theorem compareStoreScore_nonpos_iff (a b : StoreInfo) :
    compareStoreScore c a (distinctScore s.labels s.regionStores a) b (distinctScore s.labels s.regionStores b) ≤ 0 ↔
      s.storeKey c a ≤ s.storeKey c b := by
  rw [← not_lt, ← not_lt, ← gt_iff_lt, compareStoreScore_pos_iff]
  rfl

theorem compareStoreScore_nonneg_iff (a b : StoreInfo) :
    0 ≤ compareStoreScore c a (distinctScore s.labels s.regionStores a) b (distinctScore s.labels s.regionStores b) ↔
      s.storeKey c b ≤ s.storeKey c a := by
  rw [← not_lt, ← not_lt, compareStoreScore_neg_iff]
  rfl

/-- `SelectTarget`'s loop is the argmax of `storeKey` over the stores the
call's filters pass, and the selector's filters then check the result. -/
theorem selectTarget_eq (stores : List StoreInfo) (filters : List ReplicaFilter) :
    s.selectTarget c stores filters =
      ((stores.filter fun store => !replicaFilterTarget c store filters).argmax (s.storeKey c)).filter
        fun best => !replicaFilterTarget c best s.filters := by
  unfold selectTarget
  rw [foldl_keepBest_eq_map_argmax (s.storeKey c) fun x b => by simp [compareStoreScore_pos_iff, storeKey]]
  cases (stores.filter fun store => !replicaFilterTarget c store filters).argmax (s.storeKey c) with
  | none => rfl
  | some best => by_cases h : replicaFilterTarget c best s.filters <;> simp [withScore, h, Option.filter_some]

/-- `SelectSource`'s loop is the argmin of `storeKey` over all the stores,
and the selector's filters then check the result as a source. -/
theorem selectSource_eq (stores : List StoreInfo) :
    s.selectSource c stores = (stores.argmin (s.storeKey c)).filter fun best => !replicaFilterSource c best s.filters := by
  unfold selectSource
  rw [foldl_keepBest_eq_map_argmin (s.storeKey c) fun x b => by simp [compareStoreScore_neg_iff, storeKey]]
  cases stores.argmin (s.storeKey c) with
  | none => rfl
  | some best => by_cases h : replicaFilterSource c best s.filters <;> simp [withScore, h, Option.filter_some]

variable {s c}

/-- What `SelectTarget` returns: a store of `stores` that every filter
passes, whose key no store the call's filters pass exceeds, and which comes
first among those of its key. -/
theorem selectTarget_eq_some {stores : List StoreInfo} {filters : List ReplicaFilter} {t : StoreInfo}
    (h : s.selectTarget c stores filters = some t) :
    let passing := stores.filter fun store => !replicaFilterTarget c store filters
    t ∈ passing ∧ replicaFilterTarget c t s.filters = false ∧
      (∀ st ∈ passing, s.storeKey c st ≤ s.storeKey c t) ∧
      ∀ st ∈ passing, s.storeKey c t ≤ s.storeKey c st → passing.idxOf t ≤ passing.idxOf st := by
  intro passing
  rw [selectTarget_eq, Option.filter_eq_some_iff] at h
  obtain ⟨hmax, hown⟩ := h
  obtain ⟨hmem, hle, hfirst⟩ := List.argmax_eq_some_iff.mp hmax
  exact ⟨hmem, by simpa using hown, hle, hfirst⟩

/-- What `SelectSource` returns: a store of `stores` the selector's filters
pass as a source, whose key exceeds no store's, and which comes first among
those of its key. -/
theorem selectSource_eq_some {stores : List StoreInfo} {w : StoreInfo} (h : s.selectSource c stores = some w) :
    w ∈ stores ∧ replicaFilterSource c w s.filters = false ∧ (∀ st ∈ stores, s.storeKey c w ≤ s.storeKey c st) ∧
      ∀ st ∈ stores, s.storeKey c st ≤ s.storeKey c w → stores.idxOf w ≤ stores.idxOf st := by
  rw [selectSource_eq, Option.filter_eq_some_iff] at h
  obtain ⟨hmin, hown⟩ := h
  obtain ⟨hmem, hle, hfirst⟩ := List.argmin_eq_some_iff.mp hmin
  exact ⟨hmem, by simpa using hown, hle, hfirst⟩

/-- `SelectTarget` returns a store that passes every filter, against which
no store the call's filters pass compares better, and which comes first among
the stores that compare no worse. -/
theorem select_target_picks_first_best {stores : List StoreInfo} {filters : List ReplicaFilter} {t : StoreInfo}
    (h : s.selectTarget c stores filters = some t) :
    t ∈ stores ∧ replicaFilterTarget c t filters = false ∧ replicaFilterTarget c t s.filters = false ∧
      ∀ st ∈ stores, replicaFilterTarget c st filters = false →
        compareStoreScore c st (distinctScore s.labels s.regionStores st) t (distinctScore s.labels s.regionStores t) ≤ 0 ∧
        (0 ≤ compareStoreScore c st (distinctScore s.labels s.regionStores st) t
            (distinctScore s.labels s.regionStores t) →
          (stores.filter fun x => !replicaFilterTarget c x filters).idxOf t ≤
            (stores.filter fun x => !replicaFilterTarget c x filters).idxOf st) := by
  obtain ⟨hpassing, hown, hbest, hfirst⟩ := selectTarget_eq_some h
  obtain ⟨hmem, hpass⟩ := List.mem_filter.mp hpassing
  refine ⟨hmem, by simpa using hpass, hown, fun st hst hstpass => ?_⟩
  have hstpassing : st ∈ stores.filter fun x => !replicaFilterTarget c x filters :=
    List.mem_filter.mpr ⟨hst, by simpa using hstpass⟩
  refine ⟨(compareStoreScore_nonpos_iff c s st t).mpr (hbest st hstpassing), fun hge => ?_⟩
  exact hfirst st hstpassing ((compareStoreScore_nonneg_iff c s st t).mp hge)

/-- Two stores of equal scores: the first is picked. -/
theorem select_target_picks_first_best_sampleCluster :
    (⟨[], [], []⟩ : ReplicaSelector).selectTarget sampleCluster [upStore 1 [], upStore 2 []] [] = some (upStore 1 []) ∧
      upStore 1 [] ∈ [upStore 1 [], upStore 2 []] := by
  have h : (⟨[], [], []⟩ : ReplicaSelector).selectTarget sampleCluster [upStore 1 [], upStore 2 []] [] =
      some (upStore 1 []) := by decide
  exact ⟨h, (select_target_picks_first_best h).1⟩

end ReplicaSelector

end Selector

/-! ## The checker -/

/-- `ReplicaChecker`; a nil classifier is `none`. -/
structure ReplicaChecker where
  cluster : ReplicaCluster
  classifier : Option Classifier
  filters : List ReplicaFilter

/-- `NewReplicaChecker(cluster, classifier)`. -/
def newReplicaChecker (cluster : ReplicaCluster) (classifier : Option Classifier) : ReplicaChecker :=
  ⟨cluster, classifier, [.health, .snapshotCount]⟩

/-- `uint64(d.Seconds())` for a duration of `d` nanoseconds: `Seconds` adds
the whole seconds and the rest as `float64`s, and the conversion truncates. -/
def durationSecondsToUInt64 (d : Int) : UInt64 :=
  (Float.ofInt (d.tdiv 1000000000) + Float.ofInt (d.tmod 1000000000) / 1000000000).toUInt64

namespace ReplicaChecker

variable (r : ReplicaChecker)

/-- `selectBestStoreToAddReplica(region, filters...)`: the store's id and its
distinct score, `(0, 0)` with none. -/
def selectBestStoreToAddReplica (region : RegionInfo) (filters : List ReplicaFilter) : UInt64 × Int :=
  let newFilters : List ReplicaFilter := [.state, .pendingPeerCount, .store (.excluded [] region.getStoreIds)]
  let filters := filters ++ r.filters ++ newFilters
  let filters := match r.classifier with
    | some classifier => filters ++ [.store (.inNamespace classifier (classifier.getRegionNamespace region))]
    | none => filters
  let regionStores := r.cluster.getRegionStores region
  let selector : ReplicaSelector := ⟨regionStores, r.cluster.opt.locationLabels, r.filters⟩
  match selector.selectTarget r.cluster r.cluster.getStores filters with
  | none => (0, 0)
  | some target => (target.getId, distinctScore r.cluster.opt.locationLabels regionStores target)

/-- `selectBestPeerToAddReplica(region, filters...)`: a new peer on the best
store, `(nil, 0)` with no store or no peer allocated. -/
def selectBestPeerToAddReplica (region : RegionInfo) (filters : List ReplicaFilter) : Option Peer × Int :=
  let (storeID, score) := r.selectBestStoreToAddReplica region filters
  if storeID == 0 then (none, 0)
  else match r.cluster.allocPeer storeID with
    | none => (none, 0)
    | some newPeer => (some newPeer, score)

/-- `SelectBestReplacementStore(region, oldPeer, filters...)`: the best store
for the old peer's replica among those holding none of the region's peers,
scored against the region without the old peer. -/
def selectBestReplacementStore (region : RegionInfo) (oldPeer : Peer) (filters : List ReplicaFilter) :
    UInt64 × Int :=
  let filters := filters ++ [.store (.excluded [] region.getStoreIds)]
  let newRegion := region.withRemoveStorePeer oldPeer.storeId
  r.selectBestStoreToAddReplica newRegion filters

/-- `selectWorstPeer(region)`: the region's peer on the worst of its stores
and that store's distinct score, `(nil, 0)` with none. -/
def selectWorstPeer (region : RegionInfo) : Option Peer × Int :=
  let regionStores := r.cluster.getRegionStores region
  let selector : ReplicaSelector := ⟨regionStores, r.cluster.opt.locationLabels, r.filters⟩
  match selector.selectSource r.cluster regionStores with
  | none => (none, 0)
  | some worstStore =>
    (region.getStorePeer worstStore.getId, distinctScore r.cluster.opt.locationLabels regionStores worstStore)

/-- `fixPeer(region, peer, status)`: remove the peer when the region has more
peers than `MaxReplicas` or the peer is pending, replace it otherwise. -/
def fixPeer (region : RegionInfo) (peer : Peer) (status : String) : Option Operator :=
  let removeExtra := "removeExtra" ++ status ++ "Replica"
  if region.getPeers.length > r.cluster.opt.maxReplicas then
    some (createRemovePeerOperator removeExtra r.cluster.toCluster opReplica region peer.storeId r.cluster.now)
  else
    let removePending := "removePending" ++ status ++ "Replica"
    -- a pending peer would hold up the new one: it is removed directly
    if (region.getPendingPeer peer.id).isSome then
      some (createRemovePeerOperator removePending r.cluster.toCluster opReplica region peer.storeId r.cluster.now)
    else
      let storeID := (r.selectBestReplacementStore region peer [.storageThreshold]).1
      if storeID == 0 then none
      else match r.cluster.allocPeer storeID with
        | none => none
        | some newPeer =>
          let replace := "replace" ++ status ++ "Replica"
          some (createMovePeerOperator replace r.cluster.toCluster region opReplica peer.storeId newPeer.storeId
            newPeer.id r.cluster.now)

/-- `checkDownPeer(region)`: the first down peer whose store and stats have
both been down for `MaxStoreDownTime` is fixed; an unknown store stops the
loop. -/
def checkDownPeer (region : RegionInfo) : Option Operator :=
  if !r.cluster.isRemoveDownReplicaEnabled then none else go region.downPeers
where
  go : List Pdpb.PeerStats → Option Operator
    | [] => none
    | stats :: rest =>
      let peer := stats.peer
      match r.cluster.getStore peer.storeId with
      | none => none
      | some store =>
        if store.downTime r.cluster.now < r.cluster.opt.maxStoreDownTime then go rest
        else if stats.downSeconds < durationSecondsToUInt64 r.cluster.opt.maxStoreDownTime then go rest
        else r.fixPeer region peer "Down"

/-- `checkOfflinePeer(region)`: with no learner, the first peer on a store
that is not up is fixed; an unknown store stops the loop. -/
def checkOfflinePeer (region : RegionInfo) : Option Operator :=
  if !r.cluster.isReplaceOfflineReplicaEnabled then none
  else if region.getLearners.length != 0 then none
  else go region.getPeers
where
  go : List Peer → Option Operator
    | [] => none
    | peer :: rest =>
      match r.cluster.getStore peer.storeId with
      | none => none
      | some store => if store.isUp then go rest else r.fixPeer region peer "Offline"

/-- `checkBestReplacement(region)`: move the peer on the worst store to the
best replacement, when that scores strictly higher. -/
def checkBestReplacement (region : RegionInfo) : Option Operator :=
  if !r.cluster.isLocationReplacementEnabled then none
  else
    let (oldPeer, oldScore) := r.selectWorstPeer region
    match oldPeer with
    | none => none
    | some oldPeer =>
      let (storeID, newScore) := r.selectBestReplacementStore region oldPeer [.storageThreshold]
      if storeID == 0 then none
      else if newScore ≤ oldScore then none
      else match r.cluster.allocPeer storeID with
        | none => none
        | some newPeer =>
          some (createMovePeerOperator "moveToBetterLocation" r.cluster.toCluster region opReplica oldPeer.storeId
            newPeer.storeId newPeer.id r.cluster.now)

/-- `Check(region)`: down peers first, then offline ones, both at high
priority; then a missing or an extra replica; then a better location. -/
def check (region : RegionInfo) : Option Operator :=
  match r.checkDownPeer region with
  | some op => some { op with level := .highPriority }
  | none =>
    match r.checkOfflinePeer region with
    | some op => some { op with level := .highPriority }
    | none =>
      if region.getPeers.length < r.cluster.opt.maxReplicas && r.cluster.isMakeUpReplicaEnabled then
        match (r.selectBestPeerToAddReplica region [.storageThreshold]).1 with
        | none => none
        | some newPeer =>
          let steps : List OperatorStep :=
            if r.cluster.isRaftLearnerEnabled then
              [.addLearner newPeer.storeId newPeer.id, .promoteLearner newPeer.storeId newPeer.id]
            else [.addPeer newPeer.storeId newPeer.id]
          some (newOperator "makeUpReplica" region.getID region.getRegionEpoch (opReplica ||| opRegion) steps
            r.cluster.now)
      -- voters only: a learner being added leaves the region above the count for a while
      else if region.getVoters.length > r.cluster.opt.maxReplicas && r.cluster.isRemoveExtraReplicaEnabled then
        match (r.selectWorstPeer region).1 with
        | none => none
        | some oldPeer =>
          some (createRemovePeerOperator "removeExtraReplica" r.cluster.toCluster opReplica region oldPeer.storeId
            r.cluster.now)
      else r.checkBestReplacement region

/-! ## Picking stores -/

/-- The filters `selectBestStoreToAddReplica` hands to `SelectTarget`. -/
def addReplicaFilters (region : RegionInfo) (filters : List ReplicaFilter) : List ReplicaFilter :=
  let filters := filters ++ r.filters ++ [.state, .pendingPeerCount, .store (.excluded [] region.getStoreIds)]
  match r.classifier with
  | some classifier => filters ++ [.store (.inNamespace classifier (classifier.getRegionNamespace region))]
  | none => filters

/-- The selector `selectBestStoreToAddReplica` and `selectWorstPeer` build. -/
def regionSelector (region : RegionInfo) : ReplicaSelector :=
  ⟨r.cluster.getRegionStores region, r.cluster.opt.locationLabels, r.filters⟩

theorem selectBestStoreToAddReplica_eq_match (region : RegionInfo) (filters : List ReplicaFilter) :
    r.selectBestStoreToAddReplica region filters =
      match (r.regionSelector region).selectTarget r.cluster r.cluster.getStores (r.addReplicaFilters region filters) with
      | none => (0, 0)
      | some target => (target.getId, distinctScore r.cluster.opt.locationLabels (r.cluster.getRegionStores region) target) := by
  unfold selectBestStoreToAddReplica addReplicaFilters regionSelector
  cases r.classifier <;> rfl

/-- What the checker asks of a store it adds a replica of `region` on, with
the extra filters `filters`: a store of the cluster, holding none of the
region's peers, that no filter of `selectBestStoreToAddReplica` rejects. -/
structure Admissible (region : RegionInfo) (filters : List ReplicaFilter) (t : StoreInfo) : Prop where
  mem : t ∈ r.cluster.getStores
  fresh : t.getId ∉ region.getStoreIds
  passes : ∀ f ∈ filters ++ r.filters ++ [.state, .pendingPeerCount], f.filterTarget r.cluster t = false
  inNamespace : ∀ classifier, r.classifier = some classifier →
    classifier.getStoreNamespace t = classifier.getRegionNamespace region

variable {r}

theorem replicaFilterTarget_eq_false {c : ReplicaCluster} {t : StoreInfo} {filters : List ReplicaFilter} :
    replicaFilterTarget c t filters = false ↔ ∀ f ∈ filters, f.filterTarget c t = false := by
  simp [replicaFilterTarget]

theorem admissible_of_passes {region : RegionInfo} {filters : List ReplicaFilter} {t : StoreInfo}
    (hmem : t ∈ r.cluster.getStores) (h : replicaFilterTarget r.cluster t (r.addReplicaFilters region filters) = false) :
    r.Admissible region filters t := by
  have hall : ∀ f ∈ filters ++ r.filters ++ [.state, .pendingPeerCount, .store (.excluded [] region.getStoreIds)],
      f.filterTarget r.cluster t = false := by
    intro f hf
    apply replicaFilterTarget_eq_false.mp h
    unfold addReplicaFilters
    cases r.classifier with
    | some classifier => exact List.mem_append_left _ hf
    | none => exact hf
  refine ⟨hmem, ?_, fun f hf => hall f ?_, fun classifier hcl => ?_⟩
  · simpa [ReplicaFilter.filterTarget, StoreFilter.filterTarget] using
      hall (.store (.excluded [] region.getStoreIds)) (by simp)
  · simp only [List.mem_append, List.mem_cons, List.mem_nil_iff] at hf ⊢
    tauto
  · have hns := replicaFilterTarget_eq_false.mp h
      (.store (.inNamespace classifier (classifier.getRegionNamespace region))) (by simp [addReplicaFilters, hcl])
    simpa [ReplicaFilter.filterTarget, StoreFilter.filterTarget] using hns

theorem selectBestStoreToAddReplica_eq {region : RegionInfo} {filters : List ReplicaFilter}
    (h : (r.selectBestStoreToAddReplica region filters).1 ≠ 0) :
    ∃ t, r.Admissible region filters t ∧ r.selectBestStoreToAddReplica region filters =
      (t.getId, distinctScore r.cluster.opt.locationLabels (r.cluster.getRegionStores region) t) := by
  rw [selectBestStoreToAddReplica_eq_match] at h ⊢
  cases ht : (r.regionSelector region).selectTarget r.cluster r.cluster.getStores (r.addReplicaFilters region filters) with
  | none => simp [ht] at h
  | some t =>
    obtain ⟨hpassing, -, -, -⟩ := ReplicaSelector.selectTarget_eq_some ht
    obtain ⟨hmem, hpass⟩ := List.mem_filter.mp hpassing
    exact ⟨t, admissible_of_passes hmem (by simpa using hpass), rfl⟩

theorem selectBestPeerToAddReplica_eq_some {region : RegionInfo} {filters : List ReplicaFilter} {p : Peer}
    (h : (r.selectBestPeerToAddReplica region filters).1 = some p) :
    ∃ t, r.Admissible region filters t ∧ r.cluster.allocPeer t.getId = some p := by
  unfold selectBestPeerToAddReplica at h
  rcases hb : r.selectBestStoreToAddReplica region filters with ⟨storeID, score⟩
  by_cases hzero : storeID = 0
  · simp [hb, hzero] at h
  · have hne : (r.selectBestStoreToAddReplica region filters).1 ≠ 0 := by simpa [hb] using hzero
    obtain ⟨t, ht, htb⟩ := selectBestStoreToAddReplica_eq hne
    obtain rfl : storeID = t.getId := by simp_all
    cases halloc : r.cluster.allocPeer t.getId with
    | none => simp [hb, halloc] at h
    | some q => exact ⟨t, ht, by simp_all⟩

theorem selectBestReplacementStore_eq {region : RegionInfo} {oldPeer : Peer} {filters : List ReplicaFilter}
    (h : (r.selectBestReplacementStore region oldPeer filters).1 ≠ 0) :
    ∃ t, r.Admissible (region.withRemoveStorePeer oldPeer.storeId) (filters ++ [.store (.excluded [] region.getStoreIds)]) t ∧
      t.getId ∉ region.getStoreIds ∧
      r.selectBestReplacementStore region oldPeer filters = (t.getId, distinctScore r.cluster.opt.locationLabels
        (r.cluster.getRegionStores (region.withRemoveStorePeer oldPeer.storeId)) t) := by
  obtain ⟨t, ht, heq⟩ := selectBestStoreToAddReplica_eq h
  refine ⟨t, ht, ?_, heq⟩
  -- the replacement also excludes the stores of the region as it is
  have hex := ht.passes (.store (.excluded [] region.getStoreIds)) (by simp)
  simpa [ReplicaFilter.filterTarget, StoreFilter.filterTarget] using hex

theorem selectWorstPeer_eq_some {region : RegionInfo} {oldPeer : Peer} (h : (r.selectWorstPeer region).1 = some oldPeer) :
    ∃ w, (r.regionSelector region).selectSource r.cluster (r.cluster.getRegionStores region) = some w ∧
      oldPeer ∈ region.getPeers ∧ oldPeer.storeId = w.getId ∧
      r.selectWorstPeer region = (some oldPeer, distinctScore r.cluster.opt.locationLabels (r.cluster.getRegionStores region) w) := by
  unfold selectWorstPeer at h ⊢
  cases hw : (r.regionSelector region).selectSource r.cluster (r.cluster.getRegionStores region) with
  | none => simp [regionSelector] at hw; simp [hw] at h
  | some w =>
    simp only [regionSelector] at hw
    simp only [hw] at h ⊢
    exact ⟨w, rfl, (RegionInfo.getStorePeer_eq_some h).1, (RegionInfo.getStorePeer_eq_some h).2, by rw [h]⟩

/-! ## What each check returns -/

theorem createRemovePeerOperator_steps {desc : String} {cluster : Cluster} {kind : OperatorKind}
    {region : RegionInfo} {storeID : UInt64} {now : Int} :
    (createRemovePeerOperator desc cluster kind region storeID now).steps = (removePeerSteps cluster region storeID).2 := by
  unfold createRemovePeerOperator
  rcases removePeerSteps cluster region storeID with ⟨removeKind, steps⟩
  rfl

theorem fixPeer_eq_some {region : RegionInfo} {peer : Peer} {status : String} {op : Operator}
    (h : r.fixPeer region peer status = some op) :
    (r.cluster.opt.maxReplicas < region.getPeers.length ∧
      op = createRemovePeerOperator ("removeExtra" ++ status ++ "Replica") r.cluster.toCluster opReplica region
        peer.storeId r.cluster.now) ∨
    ((region.getPendingPeer peer.id).isSome ∧
      op = createRemovePeerOperator ("removePending" ++ status ++ "Replica") r.cluster.toCluster opReplica region
        peer.storeId r.cluster.now) ∨
    ∃ t p, r.Admissible (region.withRemoveStorePeer peer.storeId) [.storageThreshold, .store (.excluded [] region.getStoreIds)] t ∧
      t.getId ∉ region.getStoreIds ∧ r.cluster.allocPeer t.getId = some p ∧
      op = createMovePeerOperator ("replace" ++ status ++ "Replica") r.cluster.toCluster region opReplica peer.storeId
        p.storeId p.id r.cluster.now := by
  unfold fixPeer at h
  split_ifs at h with hextra hpending
  · exact .inl ⟨hextra, (Option.some.inj h).symm⟩
  · exact .inr (.inl ⟨hpending, (Option.some.inj h).symm⟩)
  · -- the replacement: a store was found, and a peer allocated on it
    by_cases hzero : (r.selectBestReplacementStore region peer [.storageThreshold]).1 = 0
    · simp [hzero] at h
    obtain ⟨t, ht, hfresh, hb⟩ := selectBestReplacementStore_eq hzero
    have hid : t.getId ≠ 0 := by simpa [hb] using hzero
    cases halloc : r.cluster.allocPeer t.getId with
    | none => simp [hb, hid, halloc] at h
    | some p =>
      simp only [hb, hid, halloc, beq_iff_eq, if_false, Option.some.injEq] at h
      exact .inr (.inr ⟨t, p, ht, hfresh, halloc, h.symm⟩)

theorem checkDownPeer_go_eq_some {region : RegionInfo} {op : Operator} :
    ∀ {l : List Pdpb.PeerStats}, checkDownPeer.go r region l = some op →
      ∃ stats ∈ l, ∃ store, r.cluster.getStore stats.peer.storeId = some store ∧
        r.cluster.opt.maxStoreDownTime ≤ store.downTime r.cluster.now ∧
        durationSecondsToUInt64 r.cluster.opt.maxStoreDownTime ≤ stats.downSeconds ∧
        r.fixPeer region stats.peer "Down" = some op
  | [], h => by cases h
  | stats :: rest, h => by
    unfold checkDownPeer.go at h
    cases hs : r.cluster.getStore stats.peer.storeId with
    | none => simp [hs] at h
    | some store =>
      simp only [hs] at h
      split_ifs at h with hdown hsecs
      · obtain ⟨s, hmem, hs'⟩ := checkDownPeer_go_eq_some h
        exact ⟨s, List.mem_cons_of_mem _ hmem, hs'⟩
      · obtain ⟨s, hmem, hs'⟩ := checkDownPeer_go_eq_some h
        exact ⟨s, List.mem_cons_of_mem _ hmem, hs'⟩
      · exact ⟨stats, List.mem_cons_self, store, hs, not_lt.mp hdown, UInt64.not_lt.mp hsecs, h⟩

theorem checkDownPeer_eq_some {region : RegionInfo} {op : Operator} (h : r.checkDownPeer region = some op) :
    ∃ stats ∈ region.downPeers, ∃ store, r.cluster.getStore stats.peer.storeId = some store ∧
      r.cluster.opt.maxStoreDownTime ≤ store.downTime r.cluster.now ∧
      durationSecondsToUInt64 r.cluster.opt.maxStoreDownTime ≤ stats.downSeconds ∧
      r.fixPeer region stats.peer "Down" = some op := by
  unfold checkDownPeer at h
  split_ifs at h
  exact checkDownPeer_go_eq_some h

theorem checkOfflinePeer_go_eq_some {region : RegionInfo} {op : Operator} :
    ∀ {l : List Peer}, checkOfflinePeer.go r region l = some op →
      ∃ peer ∈ l, ∃ store, r.cluster.getStore peer.storeId = some store ∧ store.isUp = false ∧
        r.fixPeer region peer "Offline" = some op
  | [], h => by cases h
  | peer :: rest, h => by
    unfold checkOfflinePeer.go at h
    cases hs : r.cluster.getStore peer.storeId with
    | none => simp [hs] at h
    | some store =>
      simp only [hs] at h
      split_ifs at h with hup
      · obtain ⟨q, hmem, hq⟩ := checkOfflinePeer_go_eq_some h
        exact ⟨q, List.mem_cons_of_mem _ hmem, hq⟩
      · exact ⟨peer, List.mem_cons_self, store, hs, by simpa using hup, h⟩

theorem checkOfflinePeer_eq_some {region : RegionInfo} {op : Operator} (h : r.checkOfflinePeer region = some op) :
    region.getLearners = [] ∧ ∃ peer ∈ region.getPeers, ∃ store, r.cluster.getStore peer.storeId = some store ∧
      store.isUp = false ∧ r.fixPeer region peer "Offline" = some op := by
  unfold checkOfflinePeer at h
  split_ifs at h with hoff hlearners
  exact ⟨by simpa using hlearners, checkOfflinePeer_go_eq_some h⟩

theorem checkBestReplacement_eq_some {region : RegionInfo} {op : Operator} (h : r.checkBestReplacement region = some op) :
    ∃ oldPeer w t p, (r.regionSelector region).selectSource r.cluster (r.cluster.getRegionStores region) = some w ∧
      oldPeer ∈ region.getPeers ∧ oldPeer.storeId = w.getId ∧
      r.Admissible (region.withRemoveStorePeer oldPeer.storeId) [.storageThreshold, .store (.excluded [] region.getStoreIds)] t ∧
      t.getId ∉ region.getStoreIds ∧
      distinctScore r.cluster.opt.locationLabels (r.cluster.getRegionStores region) w <
        distinctScore r.cluster.opt.locationLabels (r.cluster.getRegionStores (region.withRemoveStorePeer oldPeer.storeId)) t ∧
      r.cluster.allocPeer t.getId = some p ∧
      op = createMovePeerOperator "moveToBetterLocation" r.cluster.toCluster region opReplica oldPeer.storeId
        p.storeId p.id r.cluster.now := by
  unfold checkBestReplacement at h
  split_ifs at h with hoff
  rcases hworst : r.selectWorstPeer region with ⟨_ | oldPeer, oldScore⟩
  · simp [hworst] at h
  · obtain ⟨w, hw, hmem, hstore, hworst'⟩ := selectWorstPeer_eq_some (by rw [hworst])
    obtain rfl : oldScore = _ := (Prod.mk.inj (hworst.symm.trans hworst')).2
    simp only [hworst] at h
    rcases hrep : r.selectBestReplacementStore region oldPeer [.storageThreshold] with ⟨storeID, newScore⟩
    simp only [hrep] at h
    split_ifs at h with hzero hscore
    have hne : (r.selectBestReplacementStore region oldPeer [.storageThreshold]).1 ≠ 0 := by simpa [hrep] using hzero
    obtain ⟨t, ht, hfresh, hb⟩ := selectBestReplacementStore_eq hne
    obtain ⟨rfl, rfl⟩ := Prod.mk.inj (hrep.symm.trans hb)
    cases halloc : r.cluster.allocPeer t.getId with
    | none => simp [halloc] at h
    | some p =>
      simp only [halloc, Option.some.injEq] at h
      exact ⟨oldPeer, w, t, p, hw, hmem, hstore, ht, hfresh, lt_of_not_ge hscore, halloc, h.symm⟩

/-! ## What `Check` returns -/

variable (r) in
/-- What the steps of an operator of `Check` on `region` can be. -/
inductive CheckSteps (region : RegionInfo) : List OperatorStep → Prop
  /-- a replica made up, on an admissible store -/
  | makeUp {t : StoreInfo} {p : Peer} : region.getPeers.length < r.cluster.opt.maxReplicas →
      r.Admissible region [.storageThreshold] t → r.cluster.allocPeer t.getId = some p →
      CheckSteps region (if r.cluster.isRaftLearnerEnabled then [.addLearner p.storeId p.id, .promoteLearner p.storeId p.id]
        else [.addPeer p.storeId p.id])
  /-- the store of a peer the region reports, as a peer or a down peer,
  removed: the region has more peers or voters than `MaxReplicas`, or the peer
  is pending -/
  | remove {peer : Peer} : peer ∈ region.getPeers ++ region.downPeers.map (·.peer) →
      (r.cluster.opt.maxReplicas < region.getPeers.length ∨ r.cluster.opt.maxReplicas < region.getVoters.length ∨
        (region.getPendingPeer peer.id).isSome) →
      CheckSteps region (removePeerSteps r.cluster.toCluster region peer.storeId).2
  /-- the replica on the store of a peer the region reports moved to an
  admissible store with none of the region's peers -/
  | move {peer : Peer} {t : StoreInfo} {p : Peer} : peer ∈ region.getPeers ++ region.downPeers.map (·.peer) →
      r.Admissible (region.withRemoveStorePeer peer.storeId) [.storageThreshold, .store (.excluded [] region.getStoreIds)] t →
      t.getId ∉ region.getStoreIds → r.cluster.allocPeer t.getId = some p →
      CheckSteps region ((if r.cluster.isRaftLearnerEnabled then [.addLearner p.storeId p.id, .promoteLearner p.storeId p.id]
        else [.addPeer p.storeId p.id]) ++ (removePeerSteps r.cluster.toCluster region peer.storeId).2)

theorem CheckSteps.of_fixPeer {region : RegionInfo} {peer : Peer} {status : String} {op : Operator}
    (hpeer : peer ∈ region.getPeers ++ region.downPeers.map (·.peer)) (h : r.fixPeer region peer status = some op) :
    r.CheckSteps region op.steps := by
  rcases fixPeer_eq_some h with ⟨hextra, rfl⟩ | ⟨hpending, rfl⟩ | ⟨t, p, ht, hfresh, halloc, rfl⟩
  · rw [createRemovePeerOperator_steps]
    exact .remove hpeer (.inl hextra)
  · rw [createRemovePeerOperator_steps]
    exact .remove hpeer (.inr (.inr hpending))
  · rw [createMovePeerOperator_steps]
    exact .move hpeer ht hfresh halloc

/-- The steps of every operator of `Check`, by the branch that made it. -/
theorem check_steps {region : RegionInfo} {op : Operator} (h : r.check region = some op) :
    r.CheckSteps region op.steps := by
  unfold check at h
  cases hdown : r.checkDownPeer region with
  | some op' =>
    simp only [hdown, Option.some.injEq] at h
    subst h
    obtain ⟨stats, hstats, _, _, _, _, hfix⟩ := checkDownPeer_eq_some hdown
    have hpeer : stats.peer ∈ region.getPeers ++ region.downPeers.map (·.peer) :=
      List.mem_append_right _ (List.mem_map_of_mem hstats)
    -- the priority level leaves the steps as they are
    exact (CheckSteps.of_fixPeer hpeer hfix : r.CheckSteps region op'.steps)
  | none =>
    cases hoff : r.checkOfflinePeer region with
    | some op' =>
      simp only [hdown, hoff, Option.some.injEq] at h
      subst h
      obtain ⟨_, peer, hmem, _, _, _, hfix⟩ := checkOfflinePeer_eq_some hoff
      exact (CheckSteps.of_fixPeer (List.mem_append_left _ hmem) hfix : r.CheckSteps region op'.steps)
    | none =>
      simp only [hdown, hoff] at h
      by_cases hmake : (decide (region.getPeers.length < r.cluster.opt.maxReplicas) &&
          r.cluster.isMakeUpReplicaEnabled) = true
      · -- a missing replica
        rw [if_pos hmake] at h
        cases hpeer : (r.selectBestPeerToAddReplica region [.storageThreshold]).1 with
        | none => simp [hpeer] at h
        | some p =>
          simp only [hpeer, Option.some.injEq] at h
          subst h
          obtain ⟨t, ht, halloc⟩ := selectBestPeerToAddReplica_eq_some hpeer
          exact .makeUp (by simp_all) ht halloc
      rw [if_neg hmake] at h
      by_cases hextra : (decide (region.getVoters.length > r.cluster.opt.maxReplicas) &&
          r.cluster.isRemoveExtraReplicaEnabled) = true
      · -- an extra voter
        rw [if_pos hextra] at h
        cases hworst : (r.selectWorstPeer region).1 with
        | none => simp [hworst] at h
        | some oldPeer =>
          simp only [hworst, Option.some.injEq] at h
          subst h
          obtain ⟨_, _, hmem, _⟩ := selectWorstPeer_eq_some hworst
          rw [createRemovePeerOperator_steps]
          exact .remove (List.mem_append_left _ hmem) (.inr (.inl (by simp_all)))
      rw [if_neg hextra] at h
      obtain ⟨oldPeer, _, t, p, _, hmem, _, ht, hfresh, _, halloc, rfl⟩ := checkBestReplacement_eq_some h
      rw [createMovePeerOperator_steps]
      exact .move (List.mem_append_left _ hmem) ht hfresh halloc

end ReplicaChecker

/-! ## The operators of `Check` -/

section Operators

open RegionInfo

variable {r : ReplicaChecker} {region : RegionInfo} {op : Operator}

theorem not_add_mem_removePeerSteps {cluster : Cluster} {x s id : UInt64} :
    OperatorStep.addPeer s id ∉ (removePeerSteps cluster region x).2 ∧
      OperatorStep.addLearner s id ∉ (removePeerSteps cluster region x).2 := by
  unfold removePeerSteps
  split <;> simp

theorem eq_of_removePeer_mem_removePeerSteps {cluster : Cluster} {x s : UInt64}
    (h : OperatorStep.removePeer s ∈ (removePeerSteps cluster region x).2) : s = x := by
  unfold removePeerSteps at h
  split at h <;> simp_all

/-- The steps that add a voter on `p`'s store add nothing elsewhere. -/
theorem eq_of_add_mem_addVoter {learner : Bool} {p : Peer} {s id : UInt64}
    (h : OperatorStep.addPeer s id ∈ (if learner then [.addLearner p.storeId p.id, .promoteLearner p.storeId p.id]
        else [.addPeer p.storeId p.id]) ∨
      OperatorStep.addLearner s id ∈ (if learner then [.addLearner p.storeId p.id, .promoteLearner p.storeId p.id]
        else [.addPeer p.storeId p.id])) : s = p.storeId := by
  cases learner <;> simp_all

theorem exists_add_mem_addVoter (learner : Bool) (p : Peer) :
    ∃ s id, OperatorStep.addPeer s id ∈ (if learner then [.addLearner p.storeId p.id, .promoteLearner p.storeId p.id]
        else [.addPeer p.storeId p.id]) ∨
      OperatorStep.addLearner s id ∈ (if learner then [.addLearner p.storeId p.id, .promoteLearner p.storeId p.id]
        else [.addPeer p.storeId p.id]) :=
  ⟨p.storeId, p.id, by cases learner <;> simp⟩

/-- A store admissible for the checker `NewReplicaChecker` builds, with the
storage threshold among the extra filters, passes every filter the checker
applies to a new replica's store. -/
theorem ReplicaChecker.Admissible.safe {c : ReplicaCluster} {classifier : Option Classifier} {fs : List ReplicaFilter} {t : StoreInfo}
    (h : (newReplicaChecker c classifier).Admissible region (.storageThreshold :: fs) t) :
    t ∈ c.getStores ∧ t.isUp = true ∧ ReplicaFilter.healthFilter c t = false ∧
      ReplicaFilter.snapshotCountFilter c t = false ∧ ReplicaFilter.pendingPeerCountFilter c t = false ∧
      t.isLowSpace c.lowSpaceRatio = false := by
  have hpass := h.passes
  refine ⟨h.mem, ?_, hpass .health (by simp [newReplicaChecker]), hpass .snapshotCount (by simp [newReplicaChecker]),
    hpass .pendingPeerCount (by simp), hpass .storageThreshold (by simp)⟩
  simpa [ReplicaFilter.filterTarget] using hpass .state (by simp)

/-- The steps of `NewReplicaChecker`'s operators add peers only on stores
that hold none of the region's peers and pass the filters. -/
theorem ReplicaChecker.CheckSteps.added_store {c : ReplicaCluster} {classifier : Option Classifier}
    (hAlloc : ∀ s p, c.allocPeer s = some p → p.storeId = s) {steps : List OperatorStep}
    (hsteps : (newReplicaChecker c classifier).CheckSteps region steps) {s peerID : UInt64}
    (hadd : OperatorStep.addPeer s peerID ∈ steps ∨ OperatorStep.addLearner s peerID ∈ steps) :
    s ∉ region.getStoreIds ∧ ∃ t ∈ c.getStores, t.getId = s ∧ t.isUp = true ∧
      ReplicaFilter.healthFilter c t = false ∧ ReplicaFilter.snapshotCountFilter c t = false ∧
      ReplicaFilter.pendingPeerCountFilter c t = false ∧ t.isLowSpace c.lowSpaceRatio = false := by
  cases hsteps with
  | @makeUp t p _ ht halloc =>
    obtain rfl := eq_of_add_mem_addVoter hadd
    obtain ⟨hmem, hsafe⟩ := ht.safe
    rw [hAlloc _ _ halloc]
    exact ⟨ht.fresh, t, hmem, rfl, hsafe⟩
  | remove _ _ =>
    simp only [not_add_mem_removePeerSteps, or_self] at hadd
  | @move _ t p _ ht hfresh halloc =>
    -- the removal steps add nothing, so the add is one of the new voter's
    have hadd' : OperatorStep.addPeer s peerID ∈ (if (newReplicaChecker c classifier).cluster.isRaftLearnerEnabled then
        [.addLearner p.storeId p.id, .promoteLearner p.storeId p.id] else [.addPeer p.storeId p.id]) ∨
        OperatorStep.addLearner s peerID ∈ (if (newReplicaChecker c classifier).cluster.isRaftLearnerEnabled then
        [.addLearner p.storeId p.id, .promoteLearner p.storeId p.id] else [.addPeer p.storeId p.id]) := by
      simpa only [List.mem_append, not_add_mem_removePeerSteps, or_false] using hadd
    obtain rfl := eq_of_add_mem_addVoter hadd'
    obtain ⟨hmem, hsafe⟩ := ht.safe
    rw [hAlloc _ _ halloc]
    exact ⟨hfresh, t, hmem, rfl, hsafe⟩

/-- `Check` of `NewReplicaChecker` proposes nothing, or an operator every
store of whose added peers holds none of the region's peers, and is a store
of the cluster that is up, neither busy nor down for longer than
`MaxStoreDownTime`, with no more snapshots or pending peers than the options
allow, and not low on space. -/
theorem replica_checker_adds_only_to_admissible_stores {c : ReplicaCluster} {classifier : Option Classifier}
    (hAlloc : ∀ s p, c.allocPeer s = some p → p.storeId = s) (region : RegionInfo) :
    (newReplicaChecker c classifier).check region = none ∨ ∃ op, (newReplicaChecker c classifier).check region = some op ∧
      ∀ s peerID, OperatorStep.addPeer s peerID ∈ op.steps ∨ OperatorStep.addLearner s peerID ∈ op.steps →
        s ∉ region.getStoreIds ∧ ∃ t ∈ c.getStores, t.getId = s ∧ t.isUp = true ∧
          ReplicaFilter.healthFilter c t = false ∧ ReplicaFilter.snapshotCountFilter c t = false ∧
          ReplicaFilter.pendingPeerCountFilter c t = false ∧ t.isLowSpace c.lowSpaceRatio = false := by
  cases h : (newReplicaChecker c classifier).check region with
  | none => exact .inl rfl
  | some op => exact .inr ⟨op, rfl, fun _ _ hadd => (ReplicaChecker.check_steps h).added_store hAlloc hadd⟩

theorem sampleCluster_allocPeer (s : UInt64) (p : Peer) (h : sampleCluster.allocPeer s = some p) : p.storeId = s := by
  cases h
  rfl

/-- A store that is up and has all its space free, in the given zone. -/
def roomyStore (id : UInt64) (zone : String) : StoreInfo :=
  ⟨⟨id, "", .up, [⟨"zone", zone⟩], ""⟩, ⟨false, 0, 0, 0, id, 100, 100⟩, false, 0, 0⟩

/-- `sampleCluster` with location label `zone` and four roomy stores, `3` in
zone `z2` and the others in zone `z1`. -/
def zonedCluster : ReplicaCluster :=
  { sampleCluster with
    toCluster := Cluster.ofRegions { defaultScheduleOption with locationLabels := ["zone"] } 0
      [roomyStore 1 "z1", roomyStore 2 "z1", roomyStore 3 "z2", roomyStore 4 "z1"]
      RegionsInfo.newRegionsInfo (fun _ _ => 0) (fun storeId => some ⟨9, storeId, false⟩) false (fun _ => false) }

theorem zonedCluster_getStores :
    zonedCluster.getStores = [roomyStore 1 "z1", roomyStore 2 "z1", roomyStore 3 "z2", roomyStore 4 "z1"] := rfl

theorem zonedCluster_allocPeer (s : UInt64) (p : Peer) (h : zonedCluster.allocPeer s = some p) : p.storeId = s := by
  cases h
  rfl

/-- A region with two voters, on stores `1` and `2`: one short of
`MaxReplicas`, so `Check` makes a replica up. -/
def twoPeerRegion : RegionInfo :=
  newRegionInfo ⟨1, [], [], ⟨1, 1⟩, [⟨1, 1, false⟩, ⟨2, 2, false⟩]⟩ (some ⟨1, 1, false⟩)

/-- The replica `Check` makes up for `twoPeerRegion` goes to store `3` or `4`.
The storage filter compares `float64`s, which the kernel does not evaluate,
so the operator itself, which adds a peer on store `3`, is not computed here. -/
theorem replica_checker_adds_only_to_admissible_stores_twoPeerRegion :
    (newReplicaChecker zonedCluster none).check twoPeerRegion = none ∨
      ∃ op, (newReplicaChecker zonedCluster none).check twoPeerRegion = some op ∧
        ∀ s peerID, OperatorStep.addPeer s peerID ∈ op.steps ∨ OperatorStep.addLearner s peerID ∈ op.steps →
          s = 3 ∨ s = 4 := by
  refine (replica_checker_adds_only_to_admissible_stores zonedCluster_allocPeer twoPeerRegion).imp id ?_
  rintro ⟨op, hop, hadd⟩
  refine ⟨op, hop, fun s peerID hs => ?_⟩
  obtain ⟨hfresh, t, ht, rfl, -⟩ := hadd s peerID hs
  -- of the four stores, those holding none of the region's peers are `3` and `4`
  rw [zonedCluster_getStores] at ht
  simp only [List.mem_cons, List.not_mem_nil, or_false] at ht
  rcases ht with rfl | rfl | rfl | rfl <;> revert hfresh <;> decide

/-- A region with four voters on the four stores of `sampleCluster`, its
leader on store `1`. -/
def fourPeerRegion : RegionInfo :=
  newRegionInfo ⟨1, [], [], ⟨1, 1⟩, [⟨1, 1, false⟩, ⟨2, 2, false⟩, ⟨3, 3, false⟩, ⟨4, 4, false⟩]⟩ (some ⟨1, 1, false⟩)

/-- The peer on the offline store is the region's fourth, one more than
`MaxReplicas`: it is removed. -/
theorem check_fourPeerRegion :
    (newReplicaChecker sampleCluster none).check fourPeerRegion =
      some { createRemovePeerOperator ("removeExtra" ++ "Offline" ++ "Replica") sampleCluster.toCluster opReplica
        fourPeerRegion 4 0 with level := .highPriority } := by
  rfl

theorem steps_check_fourPeerRegion :
    ({ createRemovePeerOperator ("removeExtra" ++ "Offline" ++ "Replica") sampleCluster.toCluster opReplica
        fourPeerRegion 4 0 with level := .highPriority } : Operator).steps = [.removePeer 4] := by
  rfl

/-- An operator of `Check` that removes a peer and adds none is made only when
the region has more peers or more voters than `MaxReplicas`, or when the peer
removed is pending. -/
theorem replica_checker_removes_only_surplus_or_pending (h : r.check region = some op)
    (hdown : ∀ stats ∈ region.downPeers, stats.peer ∈ region.getPeers)
    (hnoadd : ∀ s id, OperatorStep.addPeer s id ∉ op.steps ∧ OperatorStep.addLearner s id ∉ op.steps)
    {s : UInt64} (hrem : OperatorStep.removePeer s ∈ op.steps) :
    r.cluster.opt.maxReplicas < region.getPeers.length ∨ r.cluster.opt.maxReplicas < region.getVoters.length ∨
      ∃ peer ∈ region.getPeers, peer.storeId = s ∧ (region.getPendingPeer peer.id).isSome := by
  have hsteps := ReplicaChecker.check_steps h
  generalize op.steps = steps at hsteps hnoadd hrem
  cases hsteps with
  | @makeUp _ p =>
    obtain ⟨s', id, hadd⟩ := exists_add_mem_addVoter r.cluster.isRaftLearnerEnabled p
    rcases hadd with hadd | hadd
    · exact absurd hadd (hnoadd s' id).1
    · exact absurd hadd (hnoadd s' id).2
  | @remove peer hpeer hreason =>
    obtain rfl := eq_of_removePeer_mem_removePeerSteps hrem
    -- a down peer the region reports is one of its peers
    have hown : peer ∈ region.getPeers := by
      rcases List.mem_append.mp hpeer with hmem | hmem
      · exact hmem
      · obtain ⟨stats, hstats, rfl⟩ := List.mem_map.mp hmem
        exact hdown stats hstats
    rcases hreason with hpeers | hvoters | hpending
    · exact .inl hpeers
    · exact .inr (.inl hvoters)
    · exact .inr (.inr ⟨peer, hown, rfl, hpending⟩)
  | @move _ _ p =>
    obtain ⟨s', id, hadd⟩ := exists_add_mem_addVoter r.cluster.isRaftLearnerEnabled p
    rcases hadd with hadd | hadd
    · exact absurd (List.mem_append_left _ hadd) (hnoadd s' id).1
    · exact absurd (List.mem_append_left _ hadd) (hnoadd s' id).2

theorem replica_checker_removes_only_surplus_or_pending_fourPeerRegion :
    (newReplicaChecker sampleCluster none).cluster.opt.maxReplicas < fourPeerRegion.getPeers.length ∨
      (newReplicaChecker sampleCluster none).cluster.opt.maxReplicas < fourPeerRegion.getVoters.length ∨
      ∃ peer ∈ fourPeerRegion.getPeers, peer.storeId = 4 ∧ (fourPeerRegion.getPendingPeer peer.id).isSome :=
  replica_checker_removes_only_surplus_or_pending check_fourPeerRegion (fun _ h => absurd h List.not_mem_nil)
    (fun s id => by rw [steps_check_fourPeerRegion]; simp) (by rw [steps_check_fourPeerRegion]; simp)

theorem getStoreIds_filter_ne (hr : region.Placed) (s : UInt64) :
    (region.getPeers.filter (·.storeId != s)).map (·.storeId) = region.getStoreIds.erase s := by
  rw [show (fun x : Peer => x.storeId != s) = (fun t => t != s) ∘ (·.storeId) from rfl, ← List.filter_map,
    ← getStoreIds_eq, hr.peerStores.erase_eq_filter]

/-- Carried out from a region whose peers sit on distinct stores, whose
leader is a voter and whose down peers are its own, an operator of `Check`
runs to its end whenever the leader's store, should it be vacated, has a
follower to take over. It leaves the peers on distinct stores, and the stores
are the region's with one store added (while it has fewer peers than
`MaxReplicas`), one of them removed, or one of them replaced by a store new to
the region. -/
theorem replica_checker_operator_runs (hAlloc : ∀ s p, r.cluster.allocPeer s = some p → p.storeId = s)
    (h : r.check region = some op) (hr : region.Placed) (hdown : ∀ stats ∈ region.downPeers, stats.peer ∈ region.getPeers)
    (hleader : ∀ s, OperatorStep.removePeer s ∈ op.steps → region.LeaderOn s →
      (leaderTransferTarget r.cluster.toCluster region s).isSome) :
    ∃ r', runSteps region op.steps = some r' ∧ r'.Placed ∧
      ((region.getPeers.length < r.cluster.opt.maxReplicas ∧
          ∃ s ∉ region.getStoreIds, r'.getStoreIds = region.getStoreIds ++ [s]) ∨
        (∃ s ∈ region.getStoreIds, r'.getStoreIds = region.getStoreIds.erase s) ∨
        ∃ old ∈ region.getStoreIds, ∃ s ∉ region.getStoreIds, r'.getStoreIds.Perm (s :: region.getStoreIds.erase old)) := by
  -- the peers the region reports are its own
  have hreported : ∀ peer ∈ region.getPeers ++ region.downPeers.map (·.peer), peer.storeId ∈ region.getStoreIds := by
    intro peer hpeer
    rcases List.mem_append.mp hpeer with hmem | hmem
    · exact mem_getStoreIds.mpr ⟨peer, hmem, rfl⟩
    · obtain ⟨stats, hstats, rfl⟩ := List.mem_map.mp hmem
      exact mem_getStoreIds.mpr ⟨_, hdown stats hstats, rfl⟩
  have hsteps := ReplicaChecker.check_steps h
  generalize op.steps = steps at hsteps hleader
  cases hsteps with
  | @makeUp t p hlen ht halloc =>
    have hnew : p.storeId ∉ region.getStoreIds := by
      rw [hAlloc _ _ halloc]
      exact ht.fresh
    refine ⟨_, runSteps_addVoter _ hr hnew, hr.append (p := ⟨p.id, p.storeId, false⟩) hnew,
      .inl ⟨hlen, p.storeId, hnew, ?_⟩⟩
    simp [getStoreIds_eq]
  | @remove peer hpeer _ =>
    obtain ⟨r', hrun, hpeers⟩ := runSteps_removePeerSteps hr rfl (fun _ hq => hq)
      (hleader peer.storeId (removePeer_mem_removePeerSteps peer.storeId))
    refine ⟨r', hrun, hr.runSteps hrun, .inr (.inl ⟨peer.storeId, hreported peer hpeer, ?_⟩)⟩
    rw [getStoreIds_eq, hpeers, getStoreIds_filter_ne hr]
  | @move peer t p hpeer ht hfresh halloc =>
    have hnew : p.storeId ∉ region.getStoreIds := by
      rw [hAlloc _ _ halloc]
      exact hfresh
    -- the new voter first, then the removal, planned on the region as it was
    have hplaced := hr.append (p := ⟨p.id, p.storeId, false⟩) hnew
    obtain ⟨r', hrun, hpeers⟩ := @runSteps_removePeerSteps region r.cluster.toCluster peer.storeId _ hplaced rfl
      (fun _ hq => List.mem_append_left _ hq)
      (hleader peer.storeId (List.mem_append_right _ (removePeer_mem_removePeerSteps peer.storeId)))
    refine ⟨r', ?_, hplaced.runSteps hrun, .inr (.inr ⟨peer.storeId, hreported peer hpeer, p.storeId, hnew, ?_⟩)⟩
    · rw [runSteps_append, runSteps_addVoter _ hr hnew, Option.bind_some, hrun]
    · rw [getStoreIds_eq, hpeers]
      exact getStoreIds_move hr (hreported peer hpeer) hnew

theorem replica_checker_operator_runs_fourPeerRegion :
    ∃ r', runSteps fourPeerRegion ({ createRemovePeerOperator ("removeExtra" ++ "Offline" ++ "Replica")
        sampleCluster.toCluster opReplica fourPeerRegion 4 0 with level := .highPriority } : Operator).steps = some r' ∧
      r'.Placed := by
  have hr : fourPeerRegion.Placed := ⟨by decide, ⟨1, 1, false⟩, rfl, by decide⟩
  have hleader : ∀ s, OperatorStep.removePeer s ∈ ({ createRemovePeerOperator ("removeExtra" ++ "Offline" ++ "Replica")
      sampleCluster.toCluster opReplica fourPeerRegion 4 0 with level := .highPriority } : Operator).steps →
      fourPeerRegion.LeaderOn s →
      (leaderTransferTarget (newReplicaChecker sampleCluster none).cluster.toCluster fourPeerRegion s).isSome := by
    rintro s - ⟨p, hp, rfl⟩
    cases hp
    decide
  obtain ⟨r', hrun, hplaced, -⟩ := replica_checker_operator_runs sampleCluster_allocPeer check_fourPeerRegion hr
    (fun _ h => absurd h List.not_mem_nil) hleader
  exact ⟨r', hrun, hplaced⟩

theorem getRegionStores_withRemoveStorePeer {c : Cluster}
    (hStore : ∀ id store, c.getStore id = some store → store.getId = id) (x : UInt64) :
    c.getRegionStores (region.withRemoveStorePeer x) = (c.getRegionStores region).filter (·.getId != x) := by
  unfold Cluster.getRegionStores RegionInfo.withRemoveStorePeer
  rw [getPeers_withPeers, List.filterMap_filter, List.filter_filterMap]
  congr 1
  funext q
  cases hq : c.getStore q.storeId with
  | none => simp
  | some store =>
    -- the store found for a peer carries the peer's store id
    have hid := hStore _ _ hq
    by_cases hx : q.storeId = x <;> simp_all [Option.filter_some]

theorem distinctScore_filter_self (labels : List String) (stores : List StoreInfo) (other : StoreInfo) :
    distinctScore labels (stores.filter (·.getId != other.getId)) other = distinctScore labels stores other := by
  unfold distinctScore
  rw [List.foldl_filter]
  congr 1
  funext score s
  by_cases h : s.getId = other.getId <;> simp [h]

theorem checkBestReplacement_raises_distinct_score
    (hStore : ∀ id store, r.cluster.getStore id = some store → store.getId = id)
    (h : r.checkBestReplacement region = some op) :
    ∃ oldStore t p, oldStore ∈ r.cluster.getRegionStores region ∧
      (∀ st ∈ r.cluster.getRegionStores region,
        (r.regionSelector region).storeKey r.cluster oldStore ≤ (r.regionSelector region).storeKey r.cluster st) ∧
      t ∈ r.cluster.getStores ∧ t.getId ∉ region.getStoreIds ∧ r.cluster.allocPeer t.getId = some p ∧
      op = createMovePeerOperator "moveToBetterLocation" r.cluster.toCluster region opReplica oldStore.getId
        p.storeId p.id r.cluster.now ∧
      distinctScore r.cluster.opt.locationLabels (r.cluster.getRegionStores (region.withRemoveStorePeer oldStore.getId))
          oldStore <
        distinctScore r.cluster.opt.locationLabels (r.cluster.getRegionStores (region.withRemoveStorePeer oldStore.getId))
          t := by
  obtain ⟨oldPeer, w, t, p, hw, _, hstore, ht, hfresh, hscore, halloc, rfl⟩ :=
    ReplicaChecker.checkBestReplacement_eq_some h
  obtain ⟨hwmem, -, hworst, -⟩ := ReplicaSelector.selectSource_eq_some hw
  refine ⟨w, t, p, hwmem, hworst, ht.mem, hfresh, halloc, by rw [hstore], ?_⟩
  -- the old score skips the old store itself, so it is its score against the others
  have hold : distinctScore r.cluster.opt.locationLabels (r.cluster.getRegionStores (region.withRemoveStorePeer w.getId)) w =
      distinctScore r.cluster.opt.locationLabels (r.cluster.getRegionStores region) w := by
    rw [getRegionStores_withRemoveStorePeer hStore, distinctScore_filter_self]
  rw [hold]
  rwa [hstore] at hscore

/-- `checkBestReplacement` proposes nothing, or moves the replica off a store
of the region that ranks no higher than any other of its stores, to a store
new to the region whose distinct score against the region's other stores is
strictly greater than the old store's against the same stores. -/
theorem move_to_better_location_raises_distinct_score
    (hStore : ∀ id store, r.cluster.getStore id = some store → store.getId = id) (region : RegionInfo) :
    r.checkBestReplacement region = none ∨ ∃ oldStore t p, oldStore ∈ r.cluster.getRegionStores region ∧
      (∀ st ∈ r.cluster.getRegionStores region,
        (r.regionSelector region).storeKey r.cluster oldStore ≤ (r.regionSelector region).storeKey r.cluster st) ∧
      t ∈ r.cluster.getStores ∧ t.getId ∉ region.getStoreIds ∧ r.cluster.allocPeer t.getId = some p ∧
      r.checkBestReplacement region = some (createMovePeerOperator "moveToBetterLocation" r.cluster.toCluster region
        opReplica oldStore.getId p.storeId p.id r.cluster.now) ∧
      distinctScore r.cluster.opt.locationLabels (r.cluster.getRegionStores (region.withRemoveStorePeer oldStore.getId))
          oldStore <
        distinctScore r.cluster.opt.locationLabels (r.cluster.getRegionStores (region.withRemoveStorePeer oldStore.getId))
          t := by
  cases h : r.checkBestReplacement region with
  | none => exact .inl rfl
  | some op =>
    obtain ⟨oldStore, t, p, hmem, hworst, ht, hfresh, halloc, rfl, hscore⟩ := checkBestReplacement_raises_distinct_score hStore h
    exact .inr ⟨oldStore, t, p, hmem, hworst, ht, hfresh, halloc, rfl, hscore⟩

theorem zonedCluster_getStore (id : UInt64) (store : StoreInfo) (h : zonedCluster.getStore id = some store) :
    store.getId = id := by
  simpa using List.find?_some h

/-- A region with its three voters on stores `1`, `2` and `4`, all in zone
`z1`: store `3` of zone `z2` is a better location for one of them. -/
def oneZoneRegion : RegionInfo :=
  newRegionInfo ⟨1, [], [], ⟨1, 1⟩, [⟨1, 1, false⟩, ⟨2, 2, false⟩, ⟨4, 4, false⟩]⟩ (some ⟨1, 1, false⟩)

/-- The move `checkBestReplacement` proposes for `oneZoneRegion` goes to
store `3`, the one store of the cluster the region is not on. -/
theorem move_to_better_location_raises_distinct_score_oneZoneRegion :
    (newReplicaChecker zonedCluster none).checkBestReplacement oneZoneRegion = none ∨
      ∃ (oldStore : StoreInfo) (p : Peer), (newReplicaChecker zonedCluster none).checkBestReplacement oneZoneRegion =
        some (createMovePeerOperator "moveToBetterLocation" zonedCluster.toCluster oneZoneRegion opReplica
          oldStore.getId p.storeId p.id zonedCluster.now) ∧ p.storeId = 3 := by
  refine (move_to_better_location_raises_distinct_score zonedCluster_getStore oneZoneRegion).imp id ?_
  rintro ⟨oldStore, t, p, -, -, ht, hfresh, halloc, hop, -⟩
  refine ⟨oldStore, p, hop, ?_⟩
  -- the checker's cluster is `zonedCluster` itself
  change zonedCluster.allocPeer t.getId = some p at halloc
  change t ∈ zonedCluster.getStores at ht
  rw [zonedCluster_allocPeer _ _ halloc]
  rw [zonedCluster_getStores] at ht
  simp only [List.mem_cons, List.not_mem_nil, or_false] at ht
  rcases ht with rfl | rfl | rfl | rfl <;> revert hfresh <;> decide

end Operators

end Schedule

end PlacementDriver
