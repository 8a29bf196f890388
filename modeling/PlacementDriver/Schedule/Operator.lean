import PlacementDriver.Schedule.Cluster

/-!
# Operators

An `Operator` (in `server/schedule/operator.go`) is a list of steps for one
region. `Check` moves `currentStep` past the steps the region's heartbeat
shows finished and returns the next one. An operator times out ten seconds
after its creation, or ten minutes if its kind includes `OpRegion`.

`removePeerSteps` moves the leader away before removing a peer, and only to a
follower whose store has no `reject-leader` label. `matchPeerSteps` moves the
peers of a merge source onto the stores of the target and, when the source
leader's store is not one of them, transfers the leader to the store of the
*target's* leader, with no label check (`matchPeerSteps_transferLeader`).

Go's map iterations here (the followers in `removePeerSteps`, the target
stores in `matchPeerSteps`) have no fixed order. The model iterates in the
order of the region's peers.

## Main results

* `removePeerSteps_transferLeader`: a leader transfer of `removePeerSteps`
  goes to a known store with no `reject-leader` label.
* `matchPeerSteps_transferLeader`: the one leader transfer of `matchPeerSteps`
  goes to the target leader's store.
* `check_currentStep`, `Operator.isTimeout_of_isFinish`: `Check` only moves
  forward, and a finished operator is never timed out.
-/

namespace PlacementDriver

open Metapb

namespace Schedule

/-! ## Kinds, priorities and steps -/

/-- `OperatorKind`, a set of flags. -/
abbrev OperatorKind := UInt32

/-- `OpLeader`: includes a leader transfer. -/
def opLeader : OperatorKind := 1
/-- `OpRegion`: includes a peer movement. -/
def opRegion : OperatorKind := 2
/-- `OpAdmin`. -/
def opAdmin : OperatorKind := 4
/-- `OpHotRegion`. -/
def opHotRegion : OperatorKind := 8
/-- `OpAdjacent`. -/
def opAdjacent : OperatorKind := 16
/-- `OpReplica`. -/
def opReplica : OperatorKind := 32
/-- `OpBalance`. -/
def opBalance : OperatorKind := 64
/-- `OpMerge`. -/
def opMerge : OperatorKind := 128
/-- `OpRange`. -/
def opRange : OperatorKind := 256

/-- `LeaderOperatorWaitTime`: ten seconds, in nanoseconds. -/
def leaderOperatorWaitTime : Int := 10 * 1000000000

/-- `RegionOperatorWaitTime`: ten minutes, in nanoseconds. -/
def regionOperatorWaitTime : Int := 600 * 1000000000

/-- `core.PriorityLevel`: a lower level is a higher priority. -/
inductive PriorityLevel
  | highPriority
  | normalPriority
  | lowPriority
deriving DecidableEq, Repr

/-- The level as the `iota` of its constant. -/
def PriorityLevel.toNat : PriorityLevel → Nat
  | .highPriority => 0
  | .normalPriority => 1
  | .lowPriority => 2

/-- `OperatorStep`; `SplitRegion`'s policy is not read here. -/
inductive OperatorStep
  | transferLeader (fromStore toStore : UInt64)
  | addPeer (toStore peerID : UInt64)
  | addLearner (toStore peerID : UInt64)
  | promoteLearner (toStore peerID : UInt64)
  | removePeer (fromStore : UInt64)
  | mergeRegion (fromRegion toRegion : Region) (isPassive : Bool)
  | splitRegion (startKey endKey : Key)
deriving DecidableEq, Repr

end Schedule

namespace RegionInfo

variable (r : RegionInfo)

/-- `GetStoreVoter(storeID)`. -/
def getStoreVoter (storeId : UInt64) : Option Peer := r.getVoters.find? (·.storeId == storeId)

/-- `GetStoreLearner(storeID)`. -/
def getStoreLearner (storeId : UInt64) : Option Peer := r.getLearners.find? (·.storeId == storeId)

/-- `GetPendingVoter(peerID)`. -/
def getPendingVoter (peerID : UInt64) : Option Peer :=
  r.pendingPeers.find? fun p => p.id == peerID && !p.isLearner

/-- `GetPendingLearner(peerID)`. -/
def getPendingLearner (peerID : UInt64) : Option Peer :=
  r.pendingPeers.find? fun p => p.id == peerID && p.isLearner

/-- `GetFollowers()`: the voters other than the leader. -/
def getFollowers : List Peer :=
  r.getVoters.filter fun p => r.leader.isNone || r.leaderId != p.id

end RegionInfo

namespace Schedule

namespace OperatorStep

/-- `IsFinish(region)`: the region's heartbeat shows the step done. -/
def isFinish (region : RegionInfo) : OperatorStep → Bool
  | .transferLeader _ toStore => region.leaderStoreId == toStore
  | .addPeer toStore peerID =>
    match region.getStoreVoter toStore with
    | some p => p.id == peerID && (region.getPendingVoter p.id).isNone
    | none => false
  | .addLearner toStore peerID =>
    match region.getStoreLearner toStore with
    | some p => p.id == peerID && (region.getPendingLearner p.id).isNone
    | none => false
  | .promoteLearner toStore peerID =>
    match region.getStoreVoter toStore with
    | some p => p.id == peerID
    | none => false
  | .removePeer fromStore => (region.getStorePeer fromStore).isNone
  -- the passive half is done once the target's range has changed; the active half never is
  | .mergeRegion _ toRegion isPassive =>
    isPassive && (region.regionMeta.startKey != toRegion.startKey || region.regionMeta.endKey != toRegion.endKey)
  | .splitRegion startKey endKey =>
    region.regionMeta.startKey != startKey || region.regionMeta.endKey != endKey

end OperatorStep

/-! ## Operators -/

/-- `Operator`; `createTime` is in nanoseconds. -/
structure Operator where
  desc : String
  regionID : UInt64
  regionEpoch : RegionEpoch
  kind : OperatorKind
  steps : List OperatorStep
  currentStep : Nat
  createTime : Int
  level : PriorityLevel
deriving DecidableEq, Repr

/-- `NewOperator`, at the time `now`. -/
def newOperator (desc : String) (regionID : UInt64) (regionEpoch : RegionEpoch) (kind : OperatorKind)
    (steps : List OperatorStep) (now : Int) : Operator :=
  ⟨desc, regionID, regionEpoch, kind, steps, 0, now, .normalPriority⟩

/-- The loop of `Check` from the step numbered `step` on: the new
`currentStep`, and the first step not finished. -/
def checkSteps (region : RegionInfo) : List OperatorStep → Nat → Nat × Option OperatorStep
  | [], step => (step, none)
  | s :: rest, step => if s.isFinish region then checkSteps region rest (step + 1) else (step, some s)

namespace Operator

variable (o : Operator)

/-- `Check(region)`: the operator with `currentStep` moved past the finished
steps, and the step to take. -/
def check (region : RegionInfo) : Operator × Option OperatorStep :=
  let r := checkSteps region (o.steps.drop o.currentStep) o.currentStep
  ({ o with currentStep := r.1 }, r.2)

/-- `IsFinish`. -/
def isFinish : Bool := decide (o.currentStep ≥ o.steps.length)

/-- `IsTimeout`, at the time `now`. -/
def isTimeout (now : Int) : Bool :=
  if o.isFinish then false
  else if o.kind &&& opRegion != 0 then decide (now - o.createTime > regionOperatorWaitTime)
  else decide (now - o.createTime > leaderOperatorWaitTime)

end Operator

/-- `isHigherPriorityOperator(new, old)`. -/
def isHigherPriorityOperator (new old : Operator) : Bool := new.level.toNat < old.level.toNat

/-! ## Steps built from the cluster -/

/-- The loop of `removePeerSteps` over the followers: the first whose store is
known and has no `reject-leader` label, when the peer to remove is the
leader's. -/
def leaderTransferTarget (cluster : Cluster) (region : RegionInfo) (storeID : UInt64) : Option UInt64 :=
  if region.leader.isSome && region.leaderStoreId == storeID then
    (region.getFollowers.map (·.storeId)).find? fun id =>
      match cluster.getStore id with
      | some follower => !cluster.checkLabelProperty rejectLeader follower.store.labels
      | none => false
  else none

/-- `removePeerSteps`: transfer the leader away first if it is on the store,
then remove the peer. -/
def removePeerSteps (cluster : Cluster) (region : RegionInfo) (storeID : UInt64) :
    OperatorKind × List OperatorStep :=
  match leaderTransferTarget cluster region storeID with
  | some id => (opLeader ||| opRegion, [.transferLeader storeID id, .removePeer storeID])
  | none => (opRegion, [.removePeer storeID])

/-- `CreateRemovePeerOperator`, at the time `now`: the steps of
`removePeerSteps`. -/
def createRemovePeerOperator (desc : String) (cluster : Cluster) (kind : OperatorKind) (region : RegionInfo)
    (storeID : UInt64) (now : Int) : Operator :=
  let (removeKind, steps) := removePeerSteps cluster region storeID
  newOperator desc region.getID region.getRegionEpoch (removeKind ||| kind) steps now

/-- `CreateMovePeerOperator`, at the time `now`: add the new peer, as a
learner promoted afterwards when raft learners are enabled, then remove the
old one by `removePeerSteps`. -/
def createMovePeerOperator (desc : String) (cluster : Cluster) (region : RegionInfo) (kind : OperatorKind)
    (oldStore newStore peerID : UInt64) (now : Int) : Operator :=
  let (removeKind, steps) := removePeerSteps cluster region oldStore
  let st : List OperatorStep :=
    if cluster.isRaftLearnerEnabled then [.addLearner newStore peerID, .promoteLearner newStore peerID]
    else [.addPeer newStore peerID]
  newOperator desc region.getID region.getRegionEpoch (removeKind ||| kind ||| opRegion) (st ++ steps) now

/-- `getIntersectionStores(a, b)`: the stores of `b`'s peers that `a` has a
peer on, in `b`'s order. -/
def getIntersectionStores (a b : List Peer) : List UInt64 :=
  (b.map (·.storeId)).filter fun s => (a.map (·.storeId)).contains s

/-- The first loop of `matchPeerSteps`: a peer on each of `storeIDs` the source
lacks, allocated by `AllocPeer`; `none` if an allocation fails. -/
def addMissingPeers (cluster : Cluster) (source : RegionInfo) : List UInt64 → Option (List OperatorStep)
  | [] => some []
  | id :: ids =>
    if (source.getStorePeer id).isSome then addMissingPeers cluster source ids
    else do
      let peer ← cluster.allocPeer id
      let rest ← addMissingPeers cluster source ids
      let add : List OperatorStep :=
        if cluster.isRaftLearnerEnabled then [.addLearner id peer.id, .promoteLearner id peer.id]
        else [.addPeer id peer.id]
      pure (add ++ rest)

/-- `matchPeerSteps(cluster, source, target)`: the steps that move the
source's peers onto the target's stores, and their kind. -/
def matchPeerSteps (cluster : Cluster) (source target : RegionInfo) : Option (List OperatorStep × OperatorKind) := do
  let storeIDs := (target.getPeers.map (·.storeId)).dedup
  let add ← addMissingPeers cluster source storeIDs
  let kindAdd : OperatorKind := if add.isEmpty then 0 else opRegion
  -- transfer the leader unless its store is shared with the target
  let isFound := (getIntersectionStores source.getPeers target.getPeers).contains source.leaderStoreId
  let transfer : List OperatorStep :=
    if isFound then [] else [.transferLeader source.leaderStoreId target.leaderStoreId]
  let kindTransfer : OperatorKind := if isFound then 0 else opLeader
  -- remove the peers on stores the target has no peer on
  let remove : List OperatorStep :=
    (source.getPeers.filter fun p => !storeIDs.contains p.storeId).map fun p => .removePeer p.storeId
  let kindRemove : OperatorKind := if remove.isEmpty then 0 else opRegion
  pure (add ++ transfer ++ remove, kindAdd ||| kindTransfer ||| kindRemove)

/-- `CreateMergeRegionOperator`: the active operator for the source, which
ends with the merge, and the passive one for the target, at the time `now`. -/
def createMergeRegionOperator (desc : String) (cluster : Cluster) (source target : RegionInfo)
    (kind : OperatorKind) (now : Int) : Option (List Operator) := do
  let (steps, kinds) ← matchPeerSteps cluster source target
  let steps := steps ++ [.mergeRegion source.regionMeta target.regionMeta false]
  let op1 := newOperator desc source.getID source.getRegionEpoch (kinds ||| kind ||| opMerge) steps now
  let op2 := newOperator desc target.getID target.getRegionEpoch (kind ||| opMerge)
    [.mergeRegion source.regionMeta target.regionMeta true] now
  pure [op1, op2]

/-! ## Properties -/

theorem checkSteps_fst_ge (region : RegionInfo) (steps : List OperatorStep) (step : Nat) :
    step ≤ (checkSteps region steps step).1 := by
  induction steps generalizing step with
  | nil => exact le_rfl
  | cons s rest ih =>
    unfold checkSteps
    split
    · exact le_trans (Nat.le_succ step) (ih (step + 1))
    · exact le_rfl

/-- `Check` only moves `currentStep` forward, and changes nothing else. -/
theorem check_currentStep (o : Operator) (region : RegionInfo) :
    o.currentStep ≤ (o.check region).1.currentStep ∧
      (o.check region).1 = { o with currentStep := (o.check region).1.currentStep } :=
  ⟨checkSteps_fst_ge region _ _, rfl⟩

/-- The step `Check` returns is one of the operator's steps, not finished. -/
theorem checkSteps_snd {region : RegionInfo} {steps : List OperatorStep} {step : Nat} {s : OperatorStep}
    (h : (checkSteps region steps step).2 = some s) : s ∈ steps ∧ s.isFinish region = false := by
  induction steps generalizing step with
  | nil => exact absurd h (by simp [checkSteps])
  | cons s' rest ih =>
    unfold checkSteps at h
    split at h
    · exact ⟨List.mem_cons_of_mem _ (ih h).1, (ih h).2⟩
    · rename_i hfin
      cases h
      exact ⟨List.mem_cons_self, by simpa using hfin⟩

/-- A finished operator is not timed out. -/
theorem Operator.isTimeout_of_isFinish {o : Operator} (h : o.isFinish = true) (now : Int) :
    o.isTimeout now = false := by
  simp [Operator.isTimeout, h]

/-- An operator is not timed out within `LeaderOperatorWaitTime` of its
creation, whatever its kind. -/
theorem Operator.isTimeout_of_le {o : Operator} {now : Int} (h : now ≤ o.createTime + leaderOperatorWaitTime) :
    o.isTimeout now = false := by
  have hwait : leaderOperatorWaitTime ≤ regionOperatorWaitTime := by decide
  unfold Operator.isTimeout
  split_ifs
  · rfl
  · exact decide_eq_false (by omega)
  · exact decide_eq_false (by omega)

/-- An operator of a level other than `HighPriority` does not replace one of
`NormalPriority`. -/
theorem isHigherPriorityOperator_of_normal {new old : Operator} (hnew : new.level ≠ .highPriority)
    (hold : old.level = .normalPriority) : isHigherPriorityOperator new old = false := by
  unfold isHigherPriorityOperator
  rw [hold]
  cases hlevel : new.level
  · exact absurd hlevel hnew
  all_goals decide

/-- An operator whose steps end with an active merge never finishes: `Check`
stops at the merge at the latest. -/
theorem checkSteps_active_merge (region : RegionInfo) (steps : List OperatorStep) (fromRegion toRegion : Region)
    (step : Nat) :
    (checkSteps region (steps ++ [.mergeRegion fromRegion toRegion false]) step).2.isSome ∧
      (checkSteps region (steps ++ [.mergeRegion fromRegion toRegion false]) step).1 < step + steps.length + 1 := by
  induction steps generalizing step with
  | nil => simp [checkSteps, OperatorStep.isFinish]
  | cons s rest ih =>
    simp only [List.cons_append, checkSteps]
    split
    · have := ih (step + 1)
      simp only [List.length_cons]
      exact ⟨this.1, by omega⟩
    · simp

/-- `Check` of an operator whose steps end with an active merge, and which has
not passed it, returns a step and stays before the end. -/
theorem check_active_merge {o : Operator} {steps : List OperatorStep} {fromRegion toRegion : Region}
    (hsteps : o.steps = steps ++ [.mergeRegion fromRegion toRegion false]) (hcur : o.currentStep < o.steps.length)
    (region : RegionInfo) :
    (o.check region).2.isSome ∧ (o.check region).1.currentStep < o.steps.length := by
  have hle : o.currentStep ≤ steps.length := by
    rw [hsteps, List.length_append, List.length_singleton] at hcur
    omega
  have hdrop : o.steps.drop o.currentStep =
      steps.drop o.currentStep ++ [.mergeRegion fromRegion toRegion false] := by
    rw [hsteps, List.drop_append_of_le_length hle]
  obtain ⟨hsome, hlt⟩ := checkSteps_active_merge region (steps.drop o.currentStep) fromRegion toRegion o.currentStep
  refine ⟨by simpa only [Operator.check, hdrop] using hsome, ?_⟩
  have hlen : o.steps.length = steps.length + 1 := by rw [hsteps, List.length_append, List.length_singleton]
  simp only [Operator.check, hdrop, List.length_drop] at hlt ⊢
  omega

/-- `Check` of a passive merge that has not started, against a region with
the target's range, returns the merge and moves nothing. -/
theorem check_passive_merge {o : Operator} {fromRegion toRegion : Region}
    (hsteps : o.steps = [.mergeRegion fromRegion toRegion true]) (hcur : o.currentStep = 0) {region : RegionInfo}
    (hstart : region.regionMeta.startKey = toRegion.startKey) (hend : region.regionMeta.endKey = toRegion.endKey) :
    o.check region = (o, some (.mergeRegion fromRegion toRegion true)) := by
  obtain ⟨desc, regionID, regionEpoch, kind, steps, currentStep, createTime, level⟩ := o
  subst hsteps hcur
  simp [Operator.check, checkSteps, OperatorStep.isFinish, hstart, hend]

/-- What `CreateMergeRegionOperator` makes of a merge of `source` into
`target` at the time `createTime`: an active operator for the source whose
steps end with the merge, and a passive one for the target with the merge
alone, both new and of normal priority. -/
structure MergePair (op₁ op₂ : Operator) (source target : Region) (createTime : Int) : Prop where
  regionID_active : op₁.regionID = source.id
  regionID_passive : op₂.regionID = target.id
  steps_active : ∃ steps, op₁.steps = steps ++ [.mergeRegion source target false]
  steps_passive : op₂.steps = [.mergeRegion source target true]
  currentStep_active : op₁.currentStep = 0
  currentStep_passive : op₂.currentStep = 0
  createTime_active : op₁.createTime = createTime
  createTime_passive : op₂.createTime = createTime
  level_active : op₁.level = .normalPriority
  level_passive : op₂.level = .normalPriority

theorem mergePair_createMergeRegionOperator {desc : String} {cluster : Cluster} {source target : RegionInfo}
    {kind : OperatorKind} {now : Int} {op₁ op₂ : Operator}
    (h : createMergeRegionOperator desc cluster source target kind now = some [op₁, op₂]) :
    MergePair op₁ op₂ source.regionMeta target.regionMeta now := by
  simp only [createMergeRegionOperator, Option.bind_eq_bind] at h
  obtain ⟨⟨steps, kinds⟩, -, h⟩ := Option.bind_eq_some_iff.mp h
  simp only [Option.pure_def, Option.some.injEq, List.cons.injEq, and_true] at h
  obtain ⟨rfl, rfl⟩ := h
  exact ⟨rfl, rfl, ⟨steps, rfl⟩, rfl, rfl, rfl, rfl, rfl, rfl, rfl⟩

theorem leaderTransferTarget_spec {cluster : Cluster} {region : RegionInfo} {storeID id : UInt64}
    (h : leaderTransferTarget cluster region storeID = some id) :
    ∃ s, cluster.getStore id = some s ∧ cluster.checkLabelProperty rejectLeader s.store.labels = false := by
  unfold leaderTransferTarget at h
  split at h
  · have hsat := List.find?_some h
    split at hsat
    · rename_i s hs
      exact ⟨s, hs, by simpa using hsat⟩
    · exact absurd hsat (by decide)
  · cases h

/-- A leader transfer of `removePeerSteps` goes to a known store with no
`reject-leader` label. -/
theorem removePeerSteps_transferLeader (cluster : Cluster) (region : RegionInfo) (storeID : UInt64)
    {fromStore toStore : UInt64} (h : .transferLeader fromStore toStore ∈ (removePeerSteps cluster region storeID).2) :
    ∃ s, cluster.getStore toStore = some s ∧ cluster.checkLabelProperty rejectLeader s.store.labels = false := by
  unfold removePeerSteps at h
  cases htarget : leaderTransferTarget cluster region storeID with
  | none => simp [htarget] at h
  | some id =>
    simp only [htarget, List.mem_cons, OperatorStep.transferLeader.injEq, reduceCtorEq, List.not_mem_nil,
      or_false] at h
    rw [h.2]
    exact leaderTransferTarget_spec htarget

/-- The steps of `matchPeerSteps` are the added peers, then at most one leader
transfer, to the target leader's store, then the removals. -/
theorem matchPeerSteps_transferLeader {cluster : Cluster} {source target : RegionInfo}
    {steps : List OperatorStep} {kind : OperatorKind} (h : matchPeerSteps cluster source target = some (steps, kind))
    {fromStore toStore : UInt64} (ht : .transferLeader fromStore toStore ∈ steps) :
    fromStore = source.leaderStoreId ∧ toStore = target.leaderStoreId := by
  simp only [matchPeerSteps, Option.bind_eq_bind] at h
  obtain ⟨add, hadd, h⟩ := Option.bind_eq_some_iff.mp h
  simp only [Option.pure_def, Option.some.injEq, Prod.mk.injEq] at h
  obtain ⟨rfl, -⟩ := h
  -- no added or removed step is a leader transfer
  have hnoadd : ∀ ids (add : List OperatorStep), addMissingPeers cluster source ids = some add →
      .transferLeader fromStore toStore ∉ add := by
    intro ids
    induction ids with
    | nil => intro add h; cases h; simp
    | cons id ids ih =>
      intro add h
      unfold addMissingPeers at h
      split at h
      · exact ih add h
      · simp only [Option.bind_eq_bind] at h
        obtain ⟨peer, -, h⟩ := Option.bind_eq_some_iff.mp h
        obtain ⟨rest, hrest, h⟩ := Option.bind_eq_some_iff.mp h
        cases h
        simp only [List.mem_append, not_or]
        refine ⟨?_, ih rest hrest⟩
        split <;> simp
  rcases List.mem_append.mp ht with ht | ht
  · rcases List.mem_append.mp ht with ht | ht
    · exact absurd ht (hnoadd _ _ hadd)
    · split at ht
      · simp at ht
      · simp only [List.mem_singleton, OperatorStep.transferLeader.injEq] at ht
        exact ht
  · simp at ht

end Schedule

end PlacementDriver
