import PlacementDriver.Schedule.ReplicaChecker
import PlacementDriver.Schedule.NamespaceChecker
import PlacementDriver.Schedule.MergeChecker
import PlacementDriver.Schedule.OperatorCount

/-!
# The patrol of the coordinator and the schedule limits

The coordinator (`server/coordinator.go`) walks over the regions in rounds
(`patrolRegions`). In each round it takes the regions `ScanRegions` returned,
skips those that have an operator in progress, and hands the others to
`checkRegion` until one of them gets an operator. `checkRegion` first
promotes the learners that are not pending, then asks the namespace checker,
the replica checker and the merge checker in turn. Each checker is asked only
while the operators of its kinds are fewer than the schedule limits:
`OperatorCount(mask)` counts the operators whose kind holds a flag of the
mask, as `updateCounts` recounts them after every change of the controller.

The replica checker and the namespace checker make operators of kind
`OpReplica`, and a merge two operators of kind `OpMerge`. So along any run of
patrol rounds, heartbeats that `Dispatch` the region's operator,
`checkOperators` and removals, with the cluster changing in between in any
way, the operators of kind `OpReplica` never outnumber the replica limit. The
merge limit is checked before a merge adds its two operators at once, so the
operators of kind `OpMerge` may outnumber it, by one at most.

The three checkers share the coordinator's cluster and classifier, as
`newCoordinator` builds them. `ClusterView` is what they read of the cluster:
the cluster as the replica checker sees it, the switches of namespace
relocation and of region merge (`IsFeatureSupported(RegionMerge)`), and what
the split cache of the merge checker holds. The four limits are
`ScheduleLimits` and stay as they are along a run. The namespace checker's
`rand.Int()` at the `i`-th region of a round is `draw i`. The scan key of the
patrol, the label statistics it updates, the metrics and the schedulers are
left out.

## Main results

* `checkRegion_cases`: `checkRegion` leaves the controller or adds what one
  of its branches proposed, under that branch's limits (`Proposal`).
* `LimitBound.checkRegion`, `LimitBound.run`: the bounds on the counts are
  kept by every call and along every run.
* `patrol_keeps_operator_counts_within_limits`: from a new coordinator, every
  run keeps at most the replica limit of operators of kind `OpReplica` and at
  most one more than the merge limit of kind `OpMerge`.
-/

namespace PlacementDriver

open Metapb Schedule Verified.BitFlags

/-! ## The kinds of the checkers' operators -/

namespace Schedule

/-- The kinds of the operators of the replica checker and of the namespace
checker: `OpReplica` with `OpRegion`, and `OpLeader` when the leader moves
away first. -/
def replicaOperatorKinds : List OperatorKind := [opRegion ||| opReplica, opLeader ||| opRegion ||| opReplica]

/-- The kinds of the two operators of a merge of the merge checker. -/
def mergeOperatorKinds : List OperatorKind :=
  [opMerge, opLeader ||| opMerge, opRegion ||| opMerge, opLeader ||| opRegion ||| opMerge]

@[simp] theorem newOperator_kind (desc : String) (regionID : UInt64) (regionEpoch : RegionEpoch)
    (kind : OperatorKind) (steps : List OperatorStep) (now : Int) :
    (newOperator desc regionID regionEpoch kind steps now).kind = kind := rfl

theorem removePeerSteps_kind (cluster : Cluster) (region : RegionInfo) (storeID : UInt64) :
    (removePeerSteps cluster region storeID).1 = opLeader ||| opRegion ∨
      (removePeerSteps cluster region storeID).1 = opRegion := by
  unfold removePeerSteps
  split
  · exact .inl rfl
  · exact .inr rfl

theorem createRemovePeerOperator_kind {desc : String} {cluster : Cluster} {kind : OperatorKind}
    {region : RegionInfo} {storeID : UInt64} {now : Int} :
    (createRemovePeerOperator desc cluster kind region storeID now).kind =
      (removePeerSteps cluster region storeID).1 ||| kind := by
  unfold createRemovePeerOperator
  rcases removePeerSteps cluster region storeID with ⟨removeKind, steps⟩
  rfl

theorem createMovePeerOperator_kind {desc : String} {cluster : Cluster} {region : RegionInfo}
    {kind : OperatorKind} {oldStore newStore peerID : UInt64} {now : Int} :
    (createMovePeerOperator desc cluster region kind oldStore newStore peerID now).kind =
      (removePeerSteps cluster region oldStore).1 ||| kind ||| opRegion := by
  unfold createMovePeerOperator
  rcases removePeerSteps cluster region oldStore with ⟨removeKind, steps⟩
  rfl

theorem createRemovePeerOperator_opReplica_kind_mem {desc : String} {cluster : Cluster} {region : RegionInfo}
    {storeID : UInt64} {now : Int} :
    (createRemovePeerOperator desc cluster opReplica region storeID now).kind ∈ replicaOperatorKinds := by
  rw [createRemovePeerOperator_kind]
  rcases removePeerSteps_kind cluster region storeID with h | h <;> rw [h] <;> decide

theorem createMovePeerOperator_opReplica_kind_mem {desc : String} {cluster : Cluster} {region : RegionInfo}
    {oldStore newStore peerID : UInt64} {now : Int} :
    (createMovePeerOperator desc cluster region opReplica oldStore newStore peerID now).kind ∈
      replicaOperatorKinds := by
  rw [createMovePeerOperator_kind]
  rcases removePeerSteps_kind cluster region oldStore with h | h <;> rw [h] <;> decide

theorem matchPeerSteps_kind {cluster : Cluster} {source target : RegionInfo} {steps : List OperatorStep}
    {kind : OperatorKind} (h : matchPeerSteps cluster source target = some (steps, kind)) :
    kind ∈ [0, opLeader, opRegion, opLeader ||| opRegion] := by
  simp only [matchPeerSteps, Option.bind_eq_bind] at h
  obtain ⟨add, -, h⟩ := Option.bind_eq_some_iff.mp h
  simp only [Option.pure_def, Option.some.injEq, Prod.mk.injEq] at h
  obtain ⟨-, rfl⟩ := h
  -- an add, a leader transfer and a removal each add their flag or none
  split_ifs <;> decide

/-- A merge is two operators, both of a merge kind. -/
theorem createMergeRegionOperator_kinds {desc : String} {cluster : Cluster} {source target : RegionInfo}
    {now : Int} {ops : List Operator} (h : createMergeRegionOperator desc cluster source target opMerge now = some ops) :
    ops.length = 2 ∧ ∀ op ∈ ops, op.kind ∈ mergeOperatorKinds := by
  simp only [createMergeRegionOperator, Option.bind_eq_bind] at h
  obtain ⟨⟨steps, kinds⟩, hmatch, h⟩ := Option.bind_eq_some_iff.mp h
  simp only [Option.pure_def, Option.some.injEq] at h
  subst h
  refine ⟨rfl, fun op hop => ?_⟩
  simp only [List.mem_cons, List.not_mem_nil, or_false] at hop
  rcases hop with rfl | rfl <;> rw [newOperator_kind]
  · rcases List.mem_cons.mp (matchPeerSteps_kind hmatch) with rfl | h
    · decide
    rcases List.mem_cons.mp h with rfl | h
    · decide
    rcases List.mem_cons.mp h with rfl | h
    · decide
    rcases List.mem_singleton.mp h with rfl
    decide
  · decide

namespace ReplicaChecker

variable {r : ReplicaChecker} {region : RegionInfo} {op : Operator}

theorem fixPeer_kind {peer : Peer} {status : String} (h : r.fixPeer region peer status = some op) :
    op.kind ∈ replicaOperatorKinds := by
  rcases fixPeer_eq_some h with ⟨-, rfl⟩ | ⟨-, rfl⟩ | ⟨t, p, -, -, -, rfl⟩
  · exact createRemovePeerOperator_opReplica_kind_mem
  · exact createRemovePeerOperator_opReplica_kind_mem
  · exact createMovePeerOperator_opReplica_kind_mem

/-- Every operator of the replica checker is of a replica kind, whichever
branch made it; the priority set on the down and offline fixes leaves the
kind. -/
theorem check_kind (h : r.check region = some op) : op.kind ∈ replicaOperatorKinds := by
  unfold check at h
  cases hdown : r.checkDownPeer region with
  | some op' =>
    simp only [hdown, Option.some.injEq] at h
    subst h
    obtain ⟨_, _, _, _, _, _, hfix⟩ := checkDownPeer_eq_some hdown
    exact (fixPeer_kind hfix : op'.kind ∈ replicaOperatorKinds)
  | none =>
    cases hoff : r.checkOfflinePeer region with
    | some op' =>
      simp only [hdown, hoff, Option.some.injEq] at h
      subst h
      obtain ⟨_, _, _, _, _, _, hfix⟩ := checkOfflinePeer_eq_some hoff
      exact (fixPeer_kind hfix : op'.kind ∈ replicaOperatorKinds)
    | none =>
      simp only [hdown, hoff] at h
      by_cases hmake : (decide (region.getPeers.length < r.cluster.opt.maxReplicas) &&
          r.cluster.isMakeUpReplicaEnabled) = true
      · -- a missing replica
        rw [if_pos hmake] at h
        split at h
        · cases h
        · cases h
          rw [newOperator_kind]
          decide
      rw [if_neg hmake] at h
      by_cases hextra : (decide (region.getVoters.length > r.cluster.opt.maxReplicas) &&
          r.cluster.isRemoveExtraReplicaEnabled) = true
      · -- an extra voter
        rw [if_pos hextra] at h
        split at h
        · cases h
        · cases h
          exact createRemovePeerOperator_opReplica_kind_mem
      rw [if_neg hextra] at h
      obtain ⟨_, _, _, _, _, _, _, _, _, _, _, rfl⟩ := checkBestReplacement_eq_some h
      exact createMovePeerOperator_opReplica_kind_mem

end ReplicaChecker

theorem NamespaceChecker.check_kind {n : NamespaceChecker} {region : RegionInfo} {draw : Nat} {op : Operator}
    (h : n.check region draw = some op) : op.kind ∈ replicaOperatorKinds := by
  obtain ⟨-, -, -, -, -, -, -, -, -, -, -, -, -, -, rfl⟩ := NamespaceChecker.check_eq_some h
  exact createMovePeerOperator_opReplica_kind_mem

theorem MergeChecker.check_kinds {m : MergeChecker} {region : RegionInfo} {ops : List Operator}
    (h : m.check region = some ops) : ops.length = 2 ∧ ∀ op ∈ ops, op.kind ∈ mergeOperatorKinds := by
  obtain ⟨_, _, _, hops⟩ := MergeChecker.check_eq_some h
  exact createMergeRegionOperator_kinds hops

end Schedule

namespace Server

/-! ## The coordinator -/

/-- What the checkers of the coordinator read of the cluster: the cluster as
the replica checker sees it, the switch of namespace relocation, whether the
cluster's version supports region merge, and which ids the merge checker's
split cache holds. -/
structure ClusterView extends ReplicaCluster where
  isNamespaceRelocationEnabled : Bool
  /-- `IsFeatureSupported(RegionMerge)` -/
  isRegionMergeSupported : Bool
  splitCache : UInt64 → Bool

/-- The limits `checkRegion` reads: `GetLeaderScheduleLimit()` and the
others, of the default namespace. -/
structure ScheduleLimits where
  leaderScheduleLimit : UInt64
  regionScheduleLimit : UInt64
  replicaScheduleLimit : UInt64
  mergeScheduleLimit : UInt64
deriving DecidableEq, Repr

/-- `coordinator`, as `patrolRegions` and `checkRegion` use it. -/
structure PatrolCoordinator where
  cluster : ClusterView
  limits : ScheduleLimits
  classifier : Classifier
  opController : OperatorController

namespace PatrolCoordinator

/-- `newCoordinator(cluster, hbStreams, classifier)`: no operator yet. -/
def newCoordinator (cluster : ClusterView) (limits : ScheduleLimits) (classifier : Classifier) : PatrolCoordinator :=
  ⟨cluster, limits, classifier, .newOperatorController⟩

variable (co : PatrolCoordinator)

/-- `NewReplicaChecker(cluster, classifier)` of `newCoordinator`. -/
def replicaChecker : ReplicaChecker := newReplicaChecker co.cluster.toReplicaCluster (some co.classifier)

/-- `NewNamespaceChecker(cluster, classifier)` of `newCoordinator`. -/
def namespaceChecker : NamespaceChecker :=
  newNamespaceChecker ⟨co.cluster.toCluster, co.cluster.isNamespaceRelocationEnabled⟩ (some co.classifier)

/-- `NewMergeChecker(cluster, classifier)` of `newCoordinator`. -/
def mergeChecker : MergeChecker := ⟨co.cluster.toCluster, co.classifier, co.cluster.splitCache⟩

/-- `AddOperator(ops...)` of a checker's proposal: the new controller, when
there is a proposal and `AddOperator` takes it. -/
def tryAddOperator : Option (List Operator) → Option OperatorController
  | none => none
  | some ops =>
    let r := co.opController.addOperator co.cluster.getRegion ops
    if r.2 then some r.1 else none

/-- The loop of `checkRegion` over the learners: the promotion of the first
learner that is not pending and whose operator `AddOperator` takes. -/
def promoteLearners (region : RegionInfo) : List Peer → OperatorController × Bool
  | [] => (co.opController, false)
  | p :: rest =>
    if (region.getPendingLearner p.id).isSome then promoteLearners region rest
    else
      let op := newOperator "promoteLearner" region.getID region.getRegionEpoch opRegion
        [.promoteLearner p.storeId p.id] co.cluster.now
      let r := co.opController.addOperator co.cluster.getRegion [op]
      if r.2 then r else promoteLearners region rest

/-- `checkRegion(region)`, with `draw` the namespace checker's `rand.Int()`:
the controller, and whether an operator was added. -/
def checkRegion (region : RegionInfo) (draw : Nat) : OperatorController × Bool :=
  let oc := co.opController
  let promoted := co.promoteLearners region region.getLearners
  if promoted.2 then promoted
  else
    -- each checker is asked only under its limits, and the next one when `AddOperator` refuses
    let relocated :=
      if oc.operatorCount opLeader < co.limits.leaderScheduleLimit.toNat &&
          oc.operatorCount opRegion < co.limits.regionScheduleLimit.toNat &&
          oc.operatorCount opReplica < co.limits.replicaScheduleLimit.toNat then
        co.tryAddOperator ((co.namespaceChecker.check region draw).map ([·]))
      else none
    let replicated :=
      if oc.operatorCount opReplica < co.limits.replicaScheduleLimit.toNat then
        co.tryAddOperator ((co.replicaChecker.check region).map ([·]))
      else none
    let merged :=
      if co.cluster.isRegionMergeSupported && oc.operatorCount opMerge < co.limits.mergeScheduleLimit.toNat then
        co.tryAddOperator (co.mergeChecker.check region)
      else none
    match relocated.or (replicated.or merged) with
    | some oc' => (oc', true)
    | none => (oc, false)

/-- One round of the loop of `patrolRegions` over the regions `ScanRegions`
returned, the `i`-th of them checked with the draw `draw i`. -/
def patrolRegions (regions : List RegionInfo) (draw : Nat → Nat) : PatrolCoordinator :=
  go co regions 0
where
  go (co : PatrolCoordinator) : List RegionInfo → Nat → PatrolCoordinator
    | [], _ => co
    | region :: rest, i =>
      -- a region with an operator in progress is skipped
      if (co.opController.getOperator region.getID).isSome then go co rest (i + 1)
      else
        let r := co.checkRegion region (draw i)
        if r.2 then { co with opController := r.1 } else go co rest (i + 1)

end PatrolCoordinator

/-- What happens to the coordinator: a patrol round, the `Dispatch` of a
region heartbeat, `checkOperators` of the cluster's background job,
`RemoveOperator`, and any change of what the checkers see of the cluster. -/
inductive PatrolEvent
  | patrolRegions (regions : List RegionInfo) (draw : Nat → Nat)
  | dispatch (region : RegionInfo)
  | checkOperators
  | removeOperator (op : Operator)
  | updateCluster (cluster : ClusterView)

namespace PatrolCoordinator

variable (co : PatrolCoordinator)

/-- One event, at the cluster's time. -/
def step : PatrolEvent → PatrolCoordinator
  | .patrolRegions regions draw => co.patrolRegions regions draw
  | .dispatch region => { co with opController := (co.opController.dispatch co.cluster.now region).1 }
  | .checkOperators => { co with opController := co.opController.checkOperators co.cluster.getRegion co.cluster.now }
  | .removeOperator op => { co with opController := co.opController.removeOperator op }
  | .updateCluster cluster => { co with cluster := cluster }

/-- A run of events. -/
def run (events : List PatrolEvent) : PatrolCoordinator := events.foldl step co

/-! ## What `checkRegion` adds -/

/-- What `checkRegion` hands to `AddOperator`, by the branch that proposed
it, with the limits that branch checked and the kinds of the operators. -/
inductive Proposal : List Operator → Prop
  | promote {op : Operator} : op.kind = opRegion → Proposal [op]
  | relocate {op : Operator} : co.opController.operatorCount opLeader < co.limits.leaderScheduleLimit.toNat →
      co.opController.operatorCount opRegion < co.limits.regionScheduleLimit.toNat →
      co.opController.operatorCount opReplica < co.limits.replicaScheduleLimit.toNat →
      op.kind ∈ replicaOperatorKinds → Proposal [op]
  | replicate {op : Operator} : co.opController.operatorCount opReplica < co.limits.replicaScheduleLimit.toNat →
      op.kind ∈ replicaOperatorKinds → Proposal [op]
  | merge {ops : List Operator} : co.cluster.isRegionMergeSupported = true →
      co.opController.operatorCount opMerge < co.limits.mergeScheduleLimit.toNat →
      ops.length = 2 → (∀ op ∈ ops, op.kind ∈ mergeOperatorKinds) → Proposal ops

variable {co}

theorem tryAddOperator_eq_some {proposal : Option (List Operator)} {oc : OperatorController}
    (h : co.tryAddOperator proposal = some oc) :
    ∃ ops, proposal = some ops ∧ oc = (co.opController.addOperator co.cluster.getRegion ops).1 := by
  cases proposal with
  | none => cases h
  | some ops =>
    simp only [tryAddOperator, Option.ite_none_right_eq_some, Option.some.injEq] at h
    exact ⟨ops, rfl, h.2.symm⟩

theorem promoteLearners_cases (region : RegionInfo) :
    ∀ learners : List Peer, (co.promoteLearners region learners).1 = co.opController ∨
      ∃ op : Operator, op.kind = opRegion ∧
        (co.promoteLearners region learners).1 = (co.opController.addOperator co.cluster.getRegion [op]).1
  | [] => .inl rfl
  | p :: rest => by
    dsimp only [promoteLearners]
    -- a pending learner, or a promotion `AddOperator` refuses, goes on to the next learner
    split_ifs with hpending hadd
    · exact promoteLearners_cases region rest
    · exact .inr ⟨_, rfl, rfl⟩
    · exact promoteLearners_cases region rest

/-- `checkRegion` leaves the controller, or adds a batch one of its branches
proposed. -/
theorem checkRegion_cases (region : RegionInfo) (draw : Nat) :
    (co.checkRegion region draw).1 = co.opController ∨
      ∃ ops, co.Proposal ops ∧ (co.checkRegion region draw).1 = (co.opController.addOperator co.cluster.getRegion ops).1 := by
  dsimp only [checkRegion]
  by_cases hpromoted : (co.promoteLearners region region.getLearners).2 = true
  · rw [if_pos hpromoted]
    rcases promoteLearners_cases region region.getLearners with h | ⟨op, hkind, h⟩
    · exact .inl h
    · exact .inr ⟨[op], .promote hkind, h⟩
  rw [if_neg hpromoted]
  split
  · rename_i oc' hsome
    refine .inr ?_
    -- the first branch that proposed, in the order the source asks them
    rcases Option.or_eq_some_iff.mp hsome with hrel | ⟨-, hsome⟩
    · split_ifs at hrel with hguard
      simp only [Bool.and_eq_true, decide_eq_true_eq] at hguard
      obtain ⟨ops, hops, rfl⟩ := tryAddOperator_eq_some hrel
      obtain ⟨op, hop, rfl⟩ := Option.map_eq_some_iff.mp hops
      exact ⟨[op], .relocate hguard.1.1 hguard.1.2 hguard.2 (NamespaceChecker.check_kind hop), rfl⟩
    rcases Option.or_eq_some_iff.mp hsome with hrep | ⟨-, hmerge⟩
    · split_ifs at hrep with hguard
      obtain ⟨ops, hops, rfl⟩ := tryAddOperator_eq_some hrep
      obtain ⟨op, hop, rfl⟩ := Option.map_eq_some_iff.mp hops
      exact ⟨[op], .replicate hguard (ReplicaChecker.check_kind hop), rfl⟩
    · split_ifs at hmerge with hguard
      simp only [Bool.and_eq_true, decide_eq_true_eq] at hguard
      obtain ⟨ops, hops, rfl⟩ := tryAddOperator_eq_some hmerge
      obtain ⟨hlen, hkinds⟩ := MergeChecker.check_kinds hops
      exact ⟨ops, .merge hguard.1 hguard.2 hlen hkinds, rfl⟩
  · exact .inl rfl

/-! ## The bounds on the counts -/

/-- The counts the limits bound: the operators of kind `OpReplica` at most
the replica limit, those of kind `OpMerge` at most one more than the merge
limit. -/
structure LimitBound (limits : ScheduleLimits) (oc : OperatorController) : Prop where
  replica : oc.operatorCount opReplica ≤ limits.replicaScheduleLimit.toNat
  merge : oc.operatorCount opMerge ≤ limits.mergeScheduleLimit.toNat + 1

theorem limitBound_newOperatorController (limits : ScheduleLimits) :
    LimitBound limits OperatorController.newOperatorController :=
  ⟨Nat.zero_le _, Nat.zero_le _⟩

variable {limits : ScheduleLimits} {oc : OperatorController}

/-- A change that raises neither count keeps the bounds. -/
theorem LimitBound.of_le (h : LimitBound limits oc) {oc' : OperatorController}
    (hreplica : oc'.operatorCount opReplica ≤ oc.operatorCount opReplica)
    (hmerge : oc'.operatorCount opMerge ≤ oc.operatorCount opMerge) : LimitBound limits oc' :=
  ⟨hreplica.trans h.replica, hmerge.trans h.merge⟩

/-- A promotion is counted by neither mask. -/
theorem LimitBound.addOperator_promote (h : LimitBound limits oc) (getRegion : UInt64 → Option RegionInfo)
    {op : Operator} (hkind : op.kind = opRegion) : LimitBound limits (oc.addOperator getRegion [op]).1 := by
  have hreplica := OperatorController.operatorCount_addOperator_le oc getRegion opReplica [op]
  have hmerge := OperatorController.operatorCount_addOperator_le oc getRegion opMerge [op]
  have hr : hasFlag opRegion opReplica = false := by decide
  have hm : hasFlag opRegion opMerge = false := by decide
  simp only [List.countP_singleton, hkind, hr, hm] at hreplica hmerge
  exact h.of_le (by simpa using hreplica) (by simpa using hmerge)

/-- One operator of a replica kind, added under the replica limit, takes the
count of `OpReplica` to the limit at most. -/
theorem LimitBound.addOperator_replica (h : LimitBound limits oc) (getRegion : UInt64 → Option RegionInfo)
    {op : Operator} (hlt : oc.operatorCount opReplica < limits.replicaScheduleLimit.toNat)
    (hkind : op.kind ∈ replicaOperatorKinds) : LimitBound limits (oc.addOperator getRegion [op]).1 := by
  have hreplica := OperatorController.operatorCount_addOperator_le oc getRegion opReplica [op]
  have hmerge := OperatorController.operatorCount_addOperator_le oc getRegion opMerge [op]
  have hnomerge : hasFlag op.kind opMerge = false := by
    simp only [replicaOperatorKinds, List.mem_cons, List.not_mem_nil, or_false] at hkind
    rcases hkind with hk | hk <;> rw [hk] <;> decide
  have hone : (if hasFlag op.kind opReplica then 1 else 0) ≤ 1 := by split <;> omega
  simp only [List.countP_singleton, hnomerge] at hreplica hmerge
  constructor
  · omega
  · simpa using hmerge.trans h.merge

/-- The two operators of a merge, added under the merge limit, take the count
of `OpMerge` one past the limit at most, and are not counted as `OpReplica`. -/
theorem LimitBound.addOperator_merge (h : LimitBound limits oc) (getRegion : UInt64 → Option RegionInfo)
    {ops : List Operator} (hlt : oc.operatorCount opMerge < limits.mergeScheduleLimit.toNat) (hlen : ops.length = 2)
    (hkinds : ∀ op ∈ ops, op.kind ∈ mergeOperatorKinds) : LimitBound limits (oc.addOperator getRegion ops).1 := by
  have hreplica := OperatorController.operatorCount_addOperator_le oc getRegion opReplica ops
  have hmerge := OperatorController.operatorCount_addOperator_le oc getRegion opMerge ops
  have hnoreplica : (ops.countP fun op => hasFlag op.kind opReplica) = 0 := by
    refine List.countP_eq_zero.mpr fun op hop => ?_
    have hk := hkinds op hop
    simp only [mergeOperatorKinds, List.mem_cons, List.not_mem_nil, or_false] at hk
    rcases hk with hk | hk | hk | hk <;> rw [hk] <;> decide
  have htwo : (ops.countP fun op => hasFlag op.kind opMerge) ≤ 2 := hlen ▸ List.countP_le_length
  constructor
  · rw [hnoreplica] at hreplica
    exact hreplica.trans h.replica
  · omega

/-- Whatever `checkRegion` proposes keeps the bounds. -/
theorem LimitBound.addOperator (h : LimitBound co.limits co.opController) {ops : List Operator}
    (hp : co.Proposal ops) : LimitBound co.limits (co.opController.addOperator co.cluster.getRegion ops).1 := by
  cases hp with
  | promote hkind => exact h.addOperator_promote _ hkind
  | relocate _ _ hlt hkind => exact h.addOperator_replica _ hlt hkind
  | replicate hlt hkind => exact h.addOperator_replica _ hlt hkind
  | merge _ hlt hlen hkinds => exact h.addOperator_merge _ hlt hlen hkinds

theorem LimitBound.checkRegion (h : LimitBound co.limits co.opController) (region : RegionInfo) (draw : Nat) :
    LimitBound co.limits (co.checkRegion region draw).1 := by
  rcases checkRegion_cases region draw with heq | ⟨ops, hp, heq⟩
  · rw [heq]
    exact h
  · rw [heq]
    exact h.addOperator hp

theorem LimitBound.patrolRegions_go (draw : Nat → Nat) :
    ∀ (regions : List RegionInfo) (i : Nat) (co : PatrolCoordinator), LimitBound co.limits co.opController →
      LimitBound (patrolRegions.go draw co regions i).limits (patrolRegions.go draw co regions i).opController
  | [], _, _, h => h
  | region :: rest, i, co, h => by
    dsimp only [patrolRegions.go]
    split_ifs
    · exact LimitBound.patrolRegions_go draw rest (i + 1) co h
    · exact h.checkRegion region (draw i)
    · exact LimitBound.patrolRegions_go draw rest (i + 1) co h

/-- Every event keeps the bounds; the limits themselves stay. -/
theorem LimitBound.step (h : LimitBound co.limits co.opController) (e : PatrolEvent) :
    LimitBound (co.step e).limits (co.step e).opController := by
  cases e with
  | patrolRegions regions draw => exact LimitBound.patrolRegions_go draw regions 0 co h
  | dispatch region =>
    exact h.of_le (OperatorController.operatorCount_dispatch_le _ _ _ _)
      (OperatorController.operatorCount_dispatch_le _ _ _ _)
  | checkOperators =>
    exact h.of_le (OperatorController.operatorCount_checkOperators_le _ _ _ _)
      (OperatorController.operatorCount_checkOperators_le _ _ _ _)
  | removeOperator op =>
    exact h.of_le (OperatorController.operatorCount_removeOperator_le _ _ _)
      (OperatorController.operatorCount_removeOperator_le _ _ _)
  | updateCluster cluster => exact h

theorem LimitBound.run : ∀ (events : List PatrolEvent) (co : PatrolCoordinator),
    LimitBound co.limits co.opController → LimitBound (co.run events).limits (co.run events).opController
  | [], _, h => h
  | e :: events, co, h => LimitBound.run events (co.step e) (h.step e)

theorem limits_run : ∀ (events : List PatrolEvent) (co : PatrolCoordinator), (co.run events).limits = co.limits
  | [], _ => rfl
  | e :: events, co => by
    have hstep : (co.step e).limits = co.limits := by
      cases e with
      | patrolRegions regions draw =>
        -- a round changes the controller only
        show (patrolRegions.go draw co regions 0).limits = co.limits
        exact limits_patrolRegions_go draw regions 0 co
      | _ => rfl
    exact (limits_run events (co.step e)).trans hstep
where
  limits_patrolRegions_go (draw : Nat → Nat) : ∀ (regions : List RegionInfo) (i : Nat) (co : PatrolCoordinator),
      (patrolRegions.go draw co regions i).limits = co.limits
    | [], _, _ => rfl
    | region :: rest, i, co => by
      dsimp only [patrolRegions.go]
      split_ifs
      · exact limits_patrolRegions_go draw rest (i + 1) co
      · rfl
      · exact limits_patrolRegions_go draw rest (i + 1) co

/-- From a new coordinator, along every run of patrol rounds, heartbeats,
`checkOperators`, removals and changes of the cluster, the operators of kind
`OpReplica` never outnumber the replica limit, and those of kind `OpMerge`
outnumber the merge limit by one at most. -/
theorem patrol_keeps_operator_counts_within_limits (cluster : ClusterView) (limits : ScheduleLimits)
    (classifier : Classifier) (events : List PatrolEvent) :
    ((newCoordinator cluster limits classifier).run events).opController.operatorCount opReplica ≤
        limits.replicaScheduleLimit.toNat ∧
      ((newCoordinator cluster limits classifier).run events).opController.operatorCount opMerge ≤
        limits.mergeScheduleLimit.toNat + 1 := by
  have h := LimitBound.run events (newCoordinator cluster limits classifier)
    (limitBound_newOperatorController limits)
  rw [limits_run] at h
  exact ⟨h.replica, h.merge⟩

/-! ## A merge takes the count past the merge limit -/

/-- A region over `[[1], [2])` on stores 1, 2, 3, led from store 1. -/
def leftRegion : RegionInfo :=
  ⟨⟨1, [1], [2], ⟨1, 1⟩, [⟨1, 1, false⟩, ⟨2, 2, false⟩, ⟨3, 3, false⟩]⟩, some ⟨1, 1, false⟩, [], [], 0, 0, 1, 1⟩

/-- Its right neighbour over `[[2], [3])`, on the same stores. -/
def rightRegion : RegionInfo :=
  ⟨⟨2, [2], [3], ⟨1, 1⟩, [⟨4, 1, false⟩, ⟨5, 2, false⟩, ⟨6, 3, false⟩]⟩, some ⟨4, 1, false⟩, [], [], 0, 0, 1, 1⟩

/-- The cluster with both regions cached, the checkers switched on but for the
location replacement, and region merge supported. -/
def mergeView : ClusterView where
  toCluster := Cluster.ofRegions defaultScheduleOption 0 [upStore 1 [], upStore 2 [], upStore 3 []]
    ((((RegionsInfo.newRegionsInfo.setRegion leftRegion).bind (·.1.setRegion rightRegion)).map (·.1)).getD
      RegionsInfo.newRegionsInfo)
    (fun _ _ => 0) (fun _ => none) false (fun _ => false)
  lowSpaceRatio := 0.8
  regionScore _ := 0
  isMakeUpReplicaEnabled := true
  isRemoveExtraReplicaEnabled := true
  isRemoveDownReplicaEnabled := true
  isReplaceOfflineReplicaEnabled := true
  isLocationReplacementEnabled := false
  isNamespaceRelocationEnabled := true
  isRegionMergeSupported := true
  splitCache _ := false

/-- With a merge limit of one, one patrol round leaves two operators of kind
`OpMerge`: the bound of `LimitBound` is reached. -/
example : ((newCoordinator mergeView ⟨4, 4, 4, 1⟩ defaultClassifier).patrolRegions [leftRegion]
    fun _ => 0).opController.operatorCount opMerge = 2 := by
  decide

end PatrolCoordinator

end Server

end PlacementDriver
