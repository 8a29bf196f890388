import PlacementDriver.Schedule.Operator

/-!
# The merge checker

`MergeChecker.Check` (in `server/schedule/merge_checker.go`) merges a small,
healthy, cold region with the smaller of its adjacent regions that the
namespace classifier lets it merge with, through `CreateMergeRegionOperator`.

The split cache is a TTL cache of the regions split recently, and of
`mergeBlockMarker` while the server has just started. It is modelled by what
it holds at the time of the check.

## Main results

* `check_eq_some`: an operator of the checker merges the region with one of
  its adjacent regions that the classifier allows, as
  `CreateMergeRegionOperator` builds it.
* `merge_checker_transfers_to_reject_leader`: the leader transfer that
  `matchPeerSteps` adds goes to the target leader's store even when that store
  has a `reject-leader` label.
-/

namespace PlacementDriver

namespace Schedule

open Metapb

/-- `mergeBlockMarker`: held by the split cache while the server has just
started. -/
def mergeBlockMarker : UInt64 := 0

/-- `MergeChecker`; `splitCache` says which ids its TTL cache holds at the
time of the check. -/
structure MergeChecker where
  cluster : Cluster
  classifier : Classifier
  splitCache : UInt64 → Bool

namespace MergeChecker

variable (m : MergeChecker)

/-- `checkTarget(region, adjacent, target)`: `adjacent` replaces `target` when
it is cold, allowed, healthy, smaller and fully replicated. -/
def checkTarget (region : RegionInfo) (adjacent target : Option RegionInfo) : Option RegionInfo :=
  match adjacent with
  | some adjacent =>
    if !m.cluster.isRegionHot adjacent.getID && m.classifier.allowMerge region adjacent &&
        adjacent.downPeers.isEmpty && adjacent.pendingPeers.isEmpty && adjacent.getLearners.isEmpty then
      -- of two cold regions, the smaller one
      if target.all (·.approximateSize > adjacent.approximateSize) then
        if adjacent.getPeers.length == m.cluster.opt.maxReplicas then some adjacent else target
      else target
    else target
  | none => target

/-- `Check(region)`. -/
def check (region : RegionInfo) : Option (List Operator) :=
  if m.splitCache mergeBlockMarker then none
  else if m.splitCache region.getID then none
  -- a region loaded from the KV store has size 0 until its first heartbeat
  else if region.approximateSize == 0 then none
  else if region.approximateSize > m.cluster.opt.maxMergeRegionSize.toNat ||
      region.approximateKeys > m.cluster.opt.maxMergeRegionKeys.toNat then none
  else if !region.downPeers.isEmpty || !region.pendingPeers.isEmpty || !region.getLearners.isEmpty then none
  else if region.getPeers.length != m.cluster.opt.maxReplicas then none
  else if m.cluster.isRegionHot region.getID then none
  else
    let adjacent := m.cluster.getAdjacentRegions region
    match m.checkTarget region adjacent.2 (m.checkTarget region adjacent.1 none) with
    | none => none
    | some target => createMergeRegionOperator "merge-region" m.cluster region target opMerge m.cluster.now

variable {m}

/-- `checkTarget` keeps its target, or takes the adjacent region when the
classifier allows the merge. -/
theorem checkTarget_spec {region : RegionInfo} {adjacent target : Option RegionInfo} {r : RegionInfo}
    (h : m.checkTarget region adjacent target = some r) :
    target = some r ∨ (adjacent = some r ∧ m.classifier.allowMerge region r = true) := by
  unfold checkTarget at h
  split at h
  · rename_i adjacent
    split_ifs at h with hok _ _
    · cases h
      simp only [Bool.and_eq_true] at hok
      exact .inr ⟨rfl, hok.1.1.1.2⟩
    all_goals exact .inl h
  · exact .inl h

/-- An operator of the checker merges the region with one of its adjacent
regions that the classifier allows. -/
theorem check_eq_some {region : RegionInfo} {ops : List Operator} (h : m.check region = some ops) :
    ∃ target, (some target = (m.cluster.getAdjacentRegions region).1 ∨
        some target = (m.cluster.getAdjacentRegions region).2) ∧
      m.classifier.allowMerge region target = true ∧
      createMergeRegionOperator "merge-region" m.cluster region target opMerge m.cluster.now = some ops := by
  unfold check at h
  split_ifs at h
  dsimp only at h
  split at h
  · cases h
  · rename_i target htarget
    -- the target came from the next region, or else from the previous one
    rcases checkTarget_spec htarget with hprev | ⟨hnext, hallow⟩
    · rcases checkTarget_spec hprev with hnone | ⟨hprev, hallow⟩
      · cases hnone
      · exact ⟨target, .inl hprev.symm, hallow, h⟩
    · exact ⟨target, .inr hnext.symm, hallow, h⟩

/-! ## A merge that moves the leader to a `reject-leader` store -/

/-- Store 4 carries `zone=z4`, a label of the `reject-leader` property. -/
def rejectOption : ScheduleOption := { defaultScheduleOption with labelProperty := [(rejectLeader, [⟨"zone", "z4"⟩])] }

/-- Stores 1 to 3, and store 4 in zone `z4`. -/
def rejectStores : List StoreInfo := [upStore 1 [], upStore 2 [], upStore 3 [], upStore 4 [⟨"zone", "z4"⟩]]

/-- A small region over `[[1], [2])` on stores 1, 2, 3, led from store 1. -/
def smallSource : RegionInfo :=
  ⟨⟨1, [1], [2], ⟨1, 1⟩, [⟨1, 1, false⟩, ⟨2, 2, false⟩, ⟨3, 3, false⟩]⟩, some ⟨1, 1, false⟩, [], [], 0, 0, 1, 1⟩

/-- Its right neighbour over `[[2], [3])` on stores 2, 3, 4, led from store 4. -/
def rejectTarget : RegionInfo :=
  ⟨⟨2, [2], [3], ⟨1, 1⟩, [⟨4, 2, false⟩, ⟨5, 3, false⟩, ⟨6, 4, false⟩]⟩, some ⟨6, 4, false⟩, [], [], 0, 0, 1, 1⟩

/-- The region cache with both regions. -/
def rejectCache : RegionsInfo :=
  (((RegionsInfo.newRegionsInfo.setRegion smallSource).bind (·.1.setRegion rejectTarget)).map (·.1)).getD
    RegionsInfo.newRegionsInfo

/-- The merge checker over that cache, after its split cache has expired; new
peers get id 7. -/
def rejectChecker : MergeChecker where
  cluster := Cluster.ofRegions rejectOption 0 rejectStores rejectCache (fun _ _ => 0)
    (fun storeId => some ⟨7, storeId, false⟩) false (fun _ => false)
  classifier := defaultClassifier
  splitCache _ := false

/-- The checker merges `smallSource` into `rejectTarget`, and the active
operator transfers the leader to store 4, which the `reject-leader` property
names. -/
theorem merge_checker_transfers_to_reject_leader :
    (rejectChecker.check smallSource).map (·.map (·.steps)) =
        some [[.addPeer 4 7, .transferLeader 1 4, .removePeer 1,
            .mergeRegion smallSource.regionMeta rejectTarget.regionMeta false],
          [.mergeRegion smallSource.regionMeta rejectTarget.regionMeta true]] ∧
      (rejectChecker.cluster.getStore 4).map
          (fun s => rejectChecker.cluster.checkLabelProperty rejectLeader s.store.labels) = some true := by
  decide

end MergeChecker

end Schedule

end PlacementDriver
