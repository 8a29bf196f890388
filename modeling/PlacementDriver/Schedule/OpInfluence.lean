import PlacementDriver.Schedule.OperatorController
import PlacementDriver.Schedulers.ShouldBalance

/-!
# What the operators in progress add to each store

The balance schedulers compare stores as they will be once the operators in
progress are done. `OpInfluence` (`operator_controller.go`) holds, for each
store, the sizes and counts the operators add or take away; each step says
what it adds (`Influence` of each step in `operator.go`), an operator adds
what its unfinished steps do, and `GetOpInfluence` sums over the operators
that have not timed out or finished and whose region the cluster knows.

`OpInfluence` is `Schedulers.OpInfluence`, the function from store id to
`StoreInfluence` that `GetStoreInfluence` reads, a store without an entry
reading as zero. The map `regionsInfluence`, which no modelled code reads, is
left out.

## Main results

* `influence_transferLeader`: a leader transfer moves the region's size of
  leader load from one store to the other.
* `influence_of_steps`: the influence of an operator whose current step is
  the first is that of its unfinished steps.
-/

namespace PlacementDriver

open Metapb Schedulers

namespace Schedule

/-- `GetStoreInfluence(id)` changed by `f`. -/
def modifyStoreInfluence (m : OpInfluence) (id : UInt64) (f : StoreInfluence → StoreInfluence) : OpInfluence :=
  Function.update m id (f (m id))

namespace OperatorStep

/-- `Influence(opInfluence, region)` of each step. -/
def influence (region : RegionInfo) (m : OpInfluence) : OperatorStep → OpInfluence
  | .transferLeader fromStore toStore =>
    let m := modifyStoreInfluence m fromStore fun s =>
      { s with leaderSize := s.leaderSize - region.approximateSize, leaderCount := s.leaderCount - 1 }
    modifyStoreInfluence m toStore fun s =>
      { s with leaderSize := s.leaderSize + region.approximateSize, leaderCount := s.leaderCount + 1 }
  | .addPeer toStore _ =>
    modifyStoreInfluence m toStore fun s =>
      { s with regionSize := s.regionSize + region.approximateSize, regionCount := s.regionCount + 1 }
  | .addLearner toStore _ =>
    modifyStoreInfluence m toStore fun s =>
      { s with regionSize := s.regionSize + region.approximateSize, regionCount := s.regionCount + 1 }
  | .promoteLearner _ _ => m
  | .removePeer fromStore =>
    modifyStoreInfluence m fromStore fun s =>
      { s with regionSize := s.regionSize - region.approximateSize, regionCount := s.regionCount - 1 }
  | .mergeRegion _ _ isPassive =>
    if isPassive then
      region.getPeers.foldl (fun m p => modifyStoreInfluence m p.storeId fun s =>
        { s with
          regionCount := s.regionCount - 1
          leaderCount := if region.leaderId == p.id then s.leaderCount - 1 else s.leaderCount }) m
    else m
  | .splitRegion _ _ =>
    region.getPeers.foldl (fun m p => modifyStoreInfluence m p.storeId fun s =>
      { s with
        regionCount := s.regionCount + 1
        leaderCount := if region.leaderId == p.id then s.leaderCount + 1 else s.leaderCount }) m

end OperatorStep

/-- `Influence(opInfluence, region)` of an operator: that of each step from
the current one on that the region does not show finished. -/
def Operator.influence (o : Operator) (m : OpInfluence) (region : RegionInfo) : OpInfluence :=
  (o.steps.drop o.currentStep).foldl (fun m step => if step.isFinish region then m else step.influence region m) m

/-- `NewOpInfluence(operators, cluster)`, with the cluster's `GetRegion` and
time. -/
def newOpInfluence (operators : List Operator) (getRegion : UInt64 → Option RegionInfo) (now : Int) :
    OpInfluence :=
  operators.foldl (fun m op =>
    if !op.isTimeout now && !op.isFinish then
      match getRegion op.regionID with
      | some region => op.influence m region
      | none => m
    else m) noInfluence

/-- `GetOpInfluence(cluster)`: the influence of the operators that have not
timed out or finished and whose region the cluster knows. -/
def OperatorController.getOpInfluence (oc : OperatorController) (getRegion : UInt64 → Option RegionInfo)
    (now : Int) : OpInfluence :=
  newOpInfluence (oc.getOperators.filter fun op =>
    !op.isTimeout now && !op.isFinish && (getRegion op.regionID).isSome) getRegion now

/-! ## A leader transfer -/

theorem modifyStoreInfluence_apply_self (m : OpInfluence) (id : UInt64) (f : StoreInfluence → StoreInfluence) :
    modifyStoreInfluence m id f id = f (m id) := by
  simp [modifyStoreInfluence]

theorem modifyStoreInfluence_apply_of_ne (m : OpInfluence) {id k : UInt64} (h : k ≠ id)
    (f : StoreInfluence → StoreInfluence) : modifyStoreInfluence m id f k = m k := by
  simp [modifyStoreInfluence, Function.update_of_ne h]

/-- A leader transfer between two stores moves the region's size of leader
load from the first to the second and leaves every other store alone. -/
theorem influence_transferLeader (region : RegionInfo) (m : OpInfluence) {fromStore toStore : UInt64}
    (hne : fromStore ≠ toStore) (k : UInt64) :
    ((OperatorStep.transferLeader fromStore toStore).influence region m k).leaderSize =
      if k = fromStore then (m k).leaderSize - region.approximateSize
      else if k = toStore then (m k).leaderSize + region.approximateSize
      else (m k).leaderSize := by
  simp only [OperatorStep.influence]
  by_cases hto : k = toStore
  · subst hto
    rw [modifyStoreInfluence_apply_self, modifyStoreInfluence_apply_of_ne _ (Ne.symm hne), if_neg (Ne.symm hne),
      if_pos rfl]
  · rw [modifyStoreInfluence_apply_of_ne _ hto, if_neg hto]
    by_cases hfrom : k = fromStore
    · subst hfrom
      rw [modifyStoreInfluence_apply_self, if_pos rfl]
    · rw [modifyStoreInfluence_apply_of_ne _ hfrom, if_neg hfrom]

/-- The influence of an operator at its first step is that of its unfinished
steps. -/
theorem influence_of_steps (o : Operator) (ho : o.currentStep = 0) (m : OpInfluence) (region : RegionInfo) :
    o.influence m region =
      o.steps.foldl (fun m step => if step.isFinish region then m else step.influence region m) m := by
  rw [Operator.influence, ho, List.drop_zero]

end Schedule

end PlacementDriver
