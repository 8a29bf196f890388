import PlacementDriver.Schedule.OperatorSimulation
import PlacementDriver.Schedule.OperatorController
import PlacementDriver.Core.RegionsInfoQueries

/-!
# Admin operators of the handler

`Handler` serves the API's requests to move regions by hand (`handler.go`).
Two of them build operators from the cluster's regions and hand them to the
operator controller:

* `AddTransferRegionOperator(regionID, storeIDs)` moves a region onto a set
  of stores. It adds a peer on each store of the set the region lacks, then
  removes every peer off the set, with no step that moves the leader.
* `AddMergeRegionOperator(regionID, targetID)` merges a region into another.
  It refuses regions with abnormal peers, and its adjacency test refuses a pair
  whose starts and ends meet on both sides, or are empty.

A handler call works on the coordinator: the cluster view it reads and the
operator controller it adds to. `getCoordinator` fails only on a cluster not
bootstrapped, which is left out. The set `storeIDs` is a Go map, ranged over in
an order the runtime picks; it is a list without duplicates here, and every
result holds for every order.

## Main results

* `runSteps_transferRegionSteps_isSome_iff`: the steps of a transfer run to the
  end exactly when the leader's store is one of the target stores.
* `getStoreIds_runSteps_transferRegionSteps`: a run to the end leaves the
  region with peers exactly on the target stores.
* `addTransferRegionOperator_eq_ok`: the operator the handler adds carries
  those steps.
* `addMergeRegionOperator_eq_regionNotAdjacent_iff`: the merge handler reports
  `ErrRegionNotAdjacent` exactly when its adjacency test, as written, holds.
-/

namespace PlacementDriver

namespace Server

open Schedule Metapb RegionInfo

/-- The errors the two handlers return. -/
inductive HandlerError where
  /-- `ErrRegionNotFound(regionID)`: "region %v not found" -/
  | regionNotFound (regionID : UInt64)
  /-- `core.NewStoreNotFoundErr(storeID)`: "store %v not found" -/
  | storeNotFound (storeID : UInt64)
  /-- `core.StoreTombstonedErr{StoreID: id}`: "The store %020d has been removed" -/
  | storeTombstoned (storeID : UInt64)
  /-- the error of `AllocPeer` -/
  | allocPeer
  /-- `ErrRegionAbnormalPeer(regionID)`: "region %v has abnormal peer" -/
  | regionAbnormalPeer (regionID : UInt64)
  /-- `ErrRegionNotAdjacent`: "two regions are not adjacent" -/
  | regionNotAdjacent
  /-- `ErrAddOperator`: "failed to add operator, maybe already have one" -/
  | addOperator
deriving DecidableEq, Repr

/-- The coordinator a handler call works through: its cluster view and its
operator controller. -/
structure Coordinator where
  cluster : Cluster
  opController : OperatorController

/-- A value read out of an `Except` computation that went through. -/
theorem bind_eq_ok {ε α β : Type} {x : Except ε α} {f : α → Except ε β} {b : β} (h : (x >>= f) = .ok b) :
    ∃ a, x = .ok a ∧ f a = .ok b := by
  cases x with
  | error e => cases h
  | ok a => exact ⟨a, rfl, h⟩

/-- An empty key, as `len(key) == 0` reads it. -/
theorem key_isEmpty_iff (k : Key) : k.isEmpty = true ↔ k = [] := List.isEmpty_iff

namespace Coordinator

variable (c : Coordinator)

/-- `opController.AddOperator(ops...)`, with `ErrAddOperator` when it refuses
the operators. -/
def addOperators (ops : List Operator) : Except HandlerError OperatorController :=
  match c.opController.addOperator c.cluster.getRegion ops with
  | (oc, true) => .ok oc
  | (_, false) => .error .addOperator

/-! ## Moving a region onto stores -/

/-- The first loop of `AddTransferRegionOperator`, over the target stores in
the order the map gives them: each must be known, and a store without a peer
of the region must not be a tombstone and gets a new peer. -/
def addTransferPeers (region : RegionInfo) : List UInt64 → Except HandlerError (List OperatorStep)
  | [] => .ok []
  | id :: ids =>
    match c.cluster.getStore id with
    | none => .error (.storeNotFound id)
    | some store =>
      if (region.getStorePeer id).isSome then addTransferPeers region ids
      else if store.isTombstone then .error (.storeTombstoned id)
      else
        match c.cluster.allocPeer id with
        | none => .error .allocPeer
        | some peer => do
          let rest ← addTransferPeers region ids
          let add : List OperatorStep :=
            if c.cluster.isRaftLearnerEnabled then [.addLearner id peer.id, .promoteLearner id peer.id]
            else [.addPeer id peer.id]
          pure (add ++ rest)

/-- The steps of `AddTransferRegionOperator`: the adds, then a `RemovePeer`
for each peer whose store is not a target. -/
def transferRegionSteps (region : RegionInfo) (storeIDs : List UInt64) : Except HandlerError (List OperatorStep) := do
  let add ← c.addTransferPeers region storeIDs
  let remove : List OperatorStep :=
    (region.getPeers.filter fun p => !storeIDs.contains p.storeId).map fun p => .removePeer p.storeId
  pure (add ++ remove)

/-- `AddTransferRegionOperator(regionID, storeIDs)`: the controller with the
`adminMoveRegion` operator added. -/
def addTransferRegionOperator (regionID : UInt64) (storeIDs : List UInt64) :
    Except HandlerError OperatorController :=
  match c.cluster.getRegion regionID with
  | none => .error (.regionNotFound regionID)
  | some region => do
    let steps ← c.transferRegionSteps region storeIDs
    c.addOperators [newOperator "adminMoveRegion" regionID region.getRegionEpoch (opAdmin ||| opRegion) steps
      c.cluster.now]

/-! ## Merging two regions -/

/-- The peer test of `AddMergeRegionOperator`: a down, pending or learner
peer, or a peer count other than `GetMaxReplicas()`. -/
def abnormalPeer (region : RegionInfo) : Bool :=
  !region.downPeers.isEmpty || !region.pendingPeers.isEmpty || !region.getLearners.isEmpty ||
    region.getPeers.length != c.cluster.opt.maxReplicas

/-- `AddMergeRegionOperator(regionID, targetID)`: the controller with the
two `adminMergeRegion` operators added. -/
def addMergeRegionOperator (regionID targetID : UInt64) : Except HandlerError OperatorController :=
  match c.cluster.getRegion regionID, c.cluster.getRegion targetID with
  | none, _ => .error (.regionNotFound regionID)
  | some _, none => .error (.regionNotFound targetID)
  | some region, some target =>
    if c.abnormalPeer region then .error (.regionAbnormalPeer regionID)
    else if c.abnormalPeer target then .error (.regionAbnormalPeer targetID)
    -- the source's test, meant for the first region with the last one
    else if (decide (region.regionMeta.startKey = target.regionMeta.endKey) || region.regionMeta.startKey.isEmpty) &&
        (decide (region.regionMeta.endKey = target.regionMeta.startKey) || region.regionMeta.endKey.isEmpty) then
      .error .regionNotAdjacent
    else
      match createMergeRegionOperator "adminMergeRegion" c.cluster region target opAdmin c.cluster.now with
      | none => .error .allocPeer
      | some ops => c.addOperators ops

/-! ## What a transfer does to the region -/

section Transfer

variable {c} {region : RegionInfo} {storeIDs : List UInt64}

/-- The add loop of a transfer is the add loop of `matchPeerSteps` once its
store checks have passed. -/
theorem addMissingPeers_of_addTransferPeers {ids : List UInt64} {add : List OperatorStep}
    (h : c.addTransferPeers region ids = .ok add) : addMissingPeers c.cluster region ids = some add := by
  induction ids generalizing add with
  | nil =>
    cases h
    rfl
  | cons id ids ih =>
    unfold addTransferPeers at h
    unfold addMissingPeers
    split at h
    · cases h
    · split at h
      · next hpeer =>
        rw [if_pos hpeer]
        exact ih h
      · next hpeer =>
        rw [if_neg hpeer]
        split at h
        · cases h
        · split at h
          · cases h
          · next peer halloc =>
            obtain ⟨rest, hrest, h⟩ := bind_eq_ok h
            cases h
            simp [halloc, ih hrest]

/-- The removals of a transfer are of the region's stores off the targets. -/
theorem transferRegionSteps_eq_ok {steps : List OperatorStep} (h : c.transferRegionSteps region storeIDs = .ok steps) :
    ∃ add, addMissingPeers c.cluster region storeIDs = some add ∧
      steps = add ++ ((region.getPeers.filter fun p => !storeIDs.contains p.storeId).map (·.storeId)).map
        .removePeer := by
  obtain ⟨add, hadd, h⟩ := bind_eq_ok h
  cases h
  refine ⟨add, addMissingPeers_of_addTransferPeers hadd, ?_⟩
  rw [List.map_map]
  rfl

theorem mem_removed_stores {s : UInt64} :
    s ∈ (region.getPeers.filter fun p => !storeIDs.contains p.storeId).map (·.storeId) ↔
      s ∈ region.getStoreIds ∧ s ∉ storeIDs := by
  rw [map_storeId_filter _ fun s => !storeIDs.contains s, List.mem_filter, ← getStoreIds_eq]
  simp

/-- With the leader on a target store, the steps of a transfer run to the end
and leave the region's peers exactly on the target stores. -/
theorem runSteps_transferRegionSteps (hr : region.Placed) (hids : storeIDs.Nodup) {steps : List OperatorStep}
    (h : c.transferRegionSteps region storeIDs = .ok steps) (hl : region.leaderStoreId ∈ storeIDs) :
    ∃ r', runSteps region steps = some r' ∧ r'.Placed ∧ r'.getStoreIds.Perm storeIDs := by
  obtain ⟨add, hadd, rfl⟩ := transferRegionSteps_eq_ok h
  set ss := (region.getPeers.filter fun p => !storeIDs.contains p.storeId).map (·.storeId)
  -- the adds leave voters on the target stores the region lacked
  obtain ⟨added, hrun₁, hmap, -⟩ := runSteps_addMissingPeers hids hadd hr fun _ _ => Iff.rfl
  -- the leader is on a target store, so no removal is of its peer
  have hleader : ∀ l, (region.withPeers (region.getPeers ++ added)).leader = some l → l.storeId ∉ ss := by
    intro l hl' hin
    rw [leader_withPeers] at hl'
    exact (mem_removed_stores.mp hin).2 (leaderStoreId_of_leader hl' ▸ hl)
  have hrun : runSteps region (add ++ ss.map .removePeer) =
      some ((region.withPeers (region.getPeers ++ added)).withPeers
        ((region.getPeers ++ added).filter fun p => !ss.contains p.storeId)) := by
    rw [runSteps_append, hrun₁, Option.bind_some, runSteps_removePeers hleader, getPeers_withPeers]
  have hr' := hr.runSteps hrun
  refine ⟨_, hrun, hr', ?_⟩
  rw [List.perm_ext_iff_of_nodup hr'.peerStores hids]
  intro s
  have hkept : (!ss.contains s) = true ↔ s ∉ ss := by simp
  rw [getStoreIds_eq, getPeers_withPeers, map_storeId_filter _ fun s => !ss.contains s, List.mem_filter,
    List.map_append, List.mem_append, hmap, List.mem_filter, ← getStoreIds_eq, hkept, mem_removed_stores,
    decide_eq_true_iff]
  tauto

/-- With the leader off the target stores, a transfer reaches the removal of
the leader's own peer, and stops there. -/
theorem runSteps_transferRegionSteps_eq_none (hr : region.Placed) (hids : storeIDs.Nodup)
    {steps : List OperatorStep} (h : c.transferRegionSteps region storeIDs = .ok steps)
    (hl : region.leaderStoreId ∉ storeIDs) : runSteps region steps = none := by
  obtain ⟨add, hadd, rfl⟩ := transferRegionSteps_eq_ok h
  obtain ⟨added, hrun₁, -, -⟩ := runSteps_addMissingPeers hids hadd hr fun _ _ => Iff.rfl
  obtain ⟨l, hleader, hlv⟩ := hr.leader
  -- the leader's peer is one of the region's, on a store off the targets
  have hin : l.storeId ∈ (region.getPeers.filter fun p => !storeIDs.contains p.storeId).map (·.storeId) := by
    rw [mem_removed_stores, ← leaderStoreId_of_leader hleader]
    exact ⟨mem_getStoreIds.mpr ⟨l, (mem_getVoters.mp hlv).1, (leaderStoreId_of_leader hleader).symm⟩, hl⟩
  rw [runSteps_append, hrun₁, Option.bind_some]
  exact runSteps_removePeers_eq_none (by rw [leader_withPeers]; exact hleader) hin

/-- A transfer runs to the end exactly when the leader's store is a target. -/
theorem runSteps_transferRegionSteps_isSome_iff (hr : region.Placed) (hids : storeIDs.Nodup)
    {steps : List OperatorStep} (h : c.transferRegionSteps region storeIDs = .ok steps) :
    (runSteps region steps).isSome ↔ region.leaderStoreId ∈ storeIDs := by
  by_cases hl : region.leaderStoreId ∈ storeIDs
  · obtain ⟨r', hrun, -⟩ := runSteps_transferRegionSteps hr hids h hl
    rw [hrun]
    exact iff_of_true rfl hl
  · rw [runSteps_transferRegionSteps_eq_none hr hids h hl]
    exact iff_of_false Bool.false_ne_true hl

/-- Whenever a transfer runs to the end, the region's peers are exactly on the
target stores. -/
theorem getStoreIds_runSteps_transferRegionSteps (hr : region.Placed) (hids : storeIDs.Nodup)
    {steps : List OperatorStep} (h : c.transferRegionSteps region storeIDs = .ok steps) {r' : RegionInfo}
    (hrun : runSteps region steps = some r') : r'.Placed ∧ r'.getStoreIds.Perm storeIDs := by
  have hl := (runSteps_transferRegionSteps_isSome_iff hr hids h).mp (by rw [hrun]; rfl)
  obtain ⟨r'', hrun', hr'', hperm⟩ := runSteps_transferRegionSteps hr hids h hl
  obtain rfl : r' = r'' := Option.some_inj.mp (hrun.symm.trans hrun')
  exact ⟨hr'', hperm⟩

end Transfer

/-- The operator the transfer handler adds carries the transfer's steps. -/
theorem addTransferRegionOperator_eq_ok {c : Coordinator} {regionID : UInt64} {storeIDs : List UInt64}
    {oc : OperatorController} (h : c.addTransferRegionOperator regionID storeIDs = .ok oc) :
    ∃ region steps op, c.cluster.getRegion regionID = some region ∧ c.transferRegionSteps region storeIDs = .ok steps ∧
      oc.getOperator regionID = some op ∧ op.steps = steps := by
  unfold addTransferRegionOperator at h
  split at h
  · cases h
  · next region hregion =>
    obtain ⟨steps, hsteps, h⟩ := bind_eq_ok h
    unfold addOperators at h
    split at h
    · next oc' hadd =>
      -- the controller took the one operator, checked against the cached region
      obtain rfl : oc' = oc := Except.ok.inj h
      set op := newOperator "adminMoveRegion" regionID region.getRegionEpoch (opAdmin ||| opRegion) steps c.cluster.now
      have hok : (c.opController.addOperator c.cluster.getRegion [op]).2 = true := by rw [hadd]
      have hoc : (c.opController.addOperator c.cluster.getRegion [op]).1 = oc' := by rw [hadd]
      refine ⟨region, steps, (op.check region).1, hregion, hsteps, ?_, rfl⟩
      rw [← hoc]
      exact OperatorController.getOperator_addOperator_mem c.cluster.getRegion (by simp) hok List.mem_cons_self hregion
    · cases h

/-! ## The adjacency test of a merge -/

theorem addOperators_ne_regionNotAdjacent (c : Coordinator) (ops : List Operator) :
    c.addOperators ops ≠ .error .regionNotAdjacent := by
  unfold addOperators
  split <;> exact fun h => by cases h

/-- The merge handler reports `ErrRegionNotAdjacent` exactly when both
regions are found with normal peers and the test holds as the source writes
it: each of the two key pairs is equal or has an empty key of `region`. -/
theorem addMergeRegionOperator_eq_regionNotAdjacent_iff (c : Coordinator) (regionID targetID : UInt64) :
    c.addMergeRegionOperator regionID targetID = .error .regionNotAdjacent ↔
      ∃ region target, c.cluster.getRegion regionID = some region ∧ c.cluster.getRegion targetID = some target ∧
        c.abnormalPeer region = false ∧ c.abnormalPeer target = false ∧
        (region.regionMeta.startKey = target.regionMeta.endKey ∨ region.regionMeta.startKey = []) ∧
        (region.regionMeta.endKey = target.regionMeta.startKey ∨ region.regionMeta.endKey = []) := by
  unfold addMergeRegionOperator
  split
  · next hr =>
    simp [hr]
  · next hr ht =>
    simp [hr, ht]
  · next region target hr ht =>
    simp only [hr, ht, Option.some.injEq, exists_and_left, exists_eq_left']
    by_cases ha : c.abnormalPeer region = true
    · rw [if_pos ha]
      exact iff_of_false (fun h => by cases h) fun h => absurd ha (by rw [h.1]; decide)
    · rw [if_neg ha]
      by_cases hb : c.abnormalPeer target = true
      · rw [if_pos hb]
        exact iff_of_false (fun h => by cases h) fun h => absurd hb (by rw [h.2.1]; decide)
      · rw [if_neg hb]
        -- past the peer tests, the adjacency test alone decides
        have hguard : ((decide (region.regionMeta.startKey = target.regionMeta.endKey) ||
              region.regionMeta.startKey.isEmpty) &&
            (decide (region.regionMeta.endKey = target.regionMeta.startKey) || region.regionMeta.endKey.isEmpty)) =
              true ↔
            (region.regionMeta.startKey = target.regionMeta.endKey ∨ region.regionMeta.startKey = []) ∧
              (region.regionMeta.endKey = target.regionMeta.startKey ∨ region.regionMeta.endKey = []) := by
          simp [key_isEmpty_iff]
        split
        · next hg =>
          exact iff_of_true rfl ⟨Bool.eq_false_iff.mpr ha, Bool.eq_false_iff.mpr hb, hguard.mp hg⟩
        · next hg =>
          refine iff_of_false ?_ fun h => hg (hguard.mpr h.2.2)
          split
          · exact fun h => by cases h
          · exact addOperators_ne_regionNotAdjacent c _

end Coordinator

/-! ## Two admin requests on a small cluster -/

open RegionsInfo

/-- Four up stores; a new peer gets the id `100`. -/
def adminCluster (regions : RegionsInfo) : Cluster :=
  Cluster.ofRegions defaultScheduleOption 0 [upStore 1 [], upStore 2 [], upStore 3 [], upStore 4 []] regions
    (fun _ _ => 0) (fun storeId => some ⟨100, storeId, false⟩) false (fun _ => false)

/-- The region `[a, b)` on stores `1`, `2` and `3`, led from store `1`. -/
def abVoters : RegionInfo :=
  newRegionInfo ⟨1, [0x61], [0x62], ⟨1, 1⟩, [⟨11, 1, false⟩, ⟨12, 2, false⟩, ⟨13, 3, false⟩]⟩ (some ⟨11, 1, false⟩)

/-- The region `[c, d)` on the same stores, which does not touch `[a, b)`. -/
def cdVoters : RegionInfo :=
  newRegionInfo ⟨2, [0x63], [0x64], ⟨1, 1⟩, [⟨21, 1, false⟩, ⟨22, 2, false⟩, ⟨23, 3, false⟩]⟩ (some ⟨21, 1, false⟩)

theorem wellFormed_abVoters : abVoters.WellFormed :=
  ⟨.inl (by decide), by decide, by decide, ⟨⟨11, 1, false⟩, rfl, by decide⟩, fun _ hp => absurd hp List.not_mem_nil⟩

theorem wellFormed_cdVoters : cdVoters.WellFormed :=
  ⟨.inl (by decide), by decide, by decide, ⟨⟨21, 1, false⟩, rfl, by decide⟩, fun _ hp => absurd hp List.not_mem_nil⟩

/-- The cache after `SetRegion(abVoters)` and `SetRegion(cdVoters)`. -/
def adminCache : RegionsInfo :=
  (run newRegionsInfo [.setRegion abVoters, .setRegion cdVoters]).getD newRegionsInfo

theorem consistent_adminCache : adminCache.Consistent := by
  refine consistent_run_getD fun ri hri => ?_
  simp only [List.mem_cons, Op.setRegion.injEq, List.not_mem_nil, or_false] at hri
  rcases hri with rfl | rfl
  · exact wellFormed_abVoters
  · exact wellFormed_cdVoters

/-- A coordinator over that cache with no operator yet. -/
def adminCoordinator : Coordinator := ⟨adminCluster adminCache, .newOperatorController⟩

/-- A transfer adds a voter on each target store the region lacks and
removes each peer off the targets, and it runs to the end exactly when the
leader's store is a target, ending with the peers exactly on the targets. So
moving `[a, b)` from stores `1, 2, 3` to `2, 3, 4` adds a peer on `4` and then
removes the leader's own peer on `1`, where the run stops. -/
theorem transfer_region_removes_leader :
    (∀ (c : Coordinator) (regionID : UInt64) (storeIDs : List UInt64) (oc : OperatorController),
      storeIDs.Nodup → c.addTransferRegionOperator regionID storeIDs = .ok oc →
      ∃ region op, c.cluster.getRegion regionID = some region ∧ oc.getOperator regionID = some op ∧
        (region.Placed → ((runSteps region op.steps).isSome ↔ region.leaderStoreId ∈ storeIDs) ∧
          ∀ r', runSteps region op.steps = some r' → r'.Placed ∧ r'.getStoreIds.Perm storeIDs)) ∧
    abVoters.Placed ∧ abVoters.LeaderOn 1 ∧ adminCache.getRegion 1 = some abVoters ∧
    ∃ oc op, adminCoordinator.addTransferRegionOperator 1 [2, 3, 4] = .ok oc ∧ oc.getOperator 1 = some op ∧
      op.steps = [.addPeer 4 100, .removePeer 1] ∧ runSteps abVoters op.steps = none := by
  refine ⟨fun c regionID storeIDs oc hids h => ?_, wellFormed_abVoters.placed, ⟨_, rfl, rfl⟩, rfl,
    _, _, rfl, rfl, rfl, by decide⟩
  obtain ⟨region, steps, op, hregion, hsteps, hop, rfl⟩ := Coordinator.addTransferRegionOperator_eq_ok h
  exact ⟨region, op, hregion, hop, fun hr => ⟨Coordinator.runSteps_transferRegionSteps_isSome_iff hr hids hsteps,
    fun _ hrun => Coordinator.getStoreIds_runSteps_transferRegionSteps hr hids hsteps hrun⟩⟩

/-- The merge handler reports `ErrRegionNotAdjacent` exactly when its test
holds as written, so two regions of a consistent cache with normal peers that
do not touch, `[a, b)` and `[c, d)`, are not refused: it adds their merge. -/
theorem merge_handler_accepts_non_adjacent :
    (∀ (c : Coordinator) (regionID targetID : UInt64),
      c.addMergeRegionOperator regionID targetID = .error .regionNotAdjacent ↔
        ∃ region target, c.cluster.getRegion regionID = some region ∧ c.cluster.getRegion targetID = some target ∧
          c.abnormalPeer region = false ∧ c.abnormalPeer target = false ∧
          (region.regionMeta.startKey = target.regionMeta.endKey ∨ region.regionMeta.startKey = []) ∧
          (region.regionMeta.endKey = target.regionMeta.startKey ∨ region.regionMeta.endKey = [])) ∧
    adminCache.Consistent ∧ adminCache.getRegion 1 = some abVoters ∧ adminCache.getRegion 2 = some cdVoters ∧
    adminCoordinator.abnormalPeer abVoters = false ∧ adminCoordinator.abnormalPeer cdVoters = false ∧
    abVoters.regionMeta.endKey ≠ cdVoters.regionMeta.startKey ∧
    cdVoters.regionMeta.endKey ≠ abVoters.regionMeta.startKey ∧
    ∃ oc, adminCoordinator.addMergeRegionOperator 1 2 = .ok oc :=
  ⟨Coordinator.addMergeRegionOperator_eq_regionNotAdjacent_iff, consistent_adminCache, rfl, rfl, rfl, rfl, by decide,
    by decide, _, rfl⟩

end Server

end PlacementDriver
