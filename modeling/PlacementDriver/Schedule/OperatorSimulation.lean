import PlacementDriver.Schedule.Operator

/-!
# Carrying out an operator's steps

PD does not execute an operator. It hands each step to the region's leader and
watches the heartbeats until the step's `IsFinish` holds. `OperatorStep.apply`
is what the stores do with a step, read on the region's peers and leader:
`AddPeer` adds a voter on `ToStore`, `AddLearner` a learner, `PromoteLearner`
makes that learner a voter, `TransferLeader` makes the voter on `ToStore` the
leader and `RemovePeer` removes the peer on `FromStore`.

`apply` is `none` where a step cannot be carried out as issued: raft hands
leadership only to a voter, a store holds at most one peer of a region, and
the leader's own peer is not removed, which is what `removePeerSteps` is
written to prevent. A merge or a split is outside this simulation, which
follows one region's peers and leader. `isFinish_of_apply` checks the reading
against the source: the region a step leaves is one on which the step's
`IsFinish` holds.

`runSteps` carries out a list of steps in order and stops at the first that
cannot be.

## Main results

* `isFinish_of_apply`: a step carried out is finished in the source's sense.
* `Placed.runSteps`: a run keeps the peers on distinct stores and the leader
  among the voters.
* `runSteps_createMovePeerOperator_eq_none`, `runSteps_createMovePeerOperator`:
  a move-peer operator stops at its `RemovePeer` exactly when the old store
  holds the leader and `removePeerSteps` found no follower to take over;
  otherwise it ends with the old store's peer replaced by a voter on the new
  store.
* `runSteps_matchPeerSteps`: the steps that match a merge source without
  learners to its target run to the end and leave the source on the target's
  stores.
-/

namespace PlacementDriver

open Metapb

namespace RegionInfo

variable (r : RegionInfo)

/-- The region with the peers `peers`. -/
def withPeers (peers : List Peer) : RegionInfo := { r with regionMeta := { r.regionMeta with peers := peers } }

@[simp] theorem getPeers_withPeers (peers : List Peer) : (r.withPeers peers).getPeers = peers := rfl

@[simp] theorem leader_withPeers (peers : List Peer) : (r.withPeers peers).leader = r.leader := rfl

@[simp] theorem pendingPeers_withPeers (peers : List Peer) : (r.withPeers peers).pendingPeers = r.pendingPeers :=
  rfl

@[simp] theorem withPeers_withPeers (peers peers' : List Peer) :
    (r.withPeers peers).withPeers peers' = r.withPeers peers' := rfl

@[simp] theorem withPeers_getPeers : r.withPeers r.getPeers = r := rfl

theorem getStoreIds_eq : r.getStoreIds = r.getPeers.map (·.storeId) := rfl

/-- What a run keeps: the peers sit on distinct stores and the leader is one
of the voters. -/
structure Placed : Prop where
  peerStores : r.getStoreIds.Nodup
  leader : ∃ p, r.leader = some p ∧ p ∈ r.getVoters

variable {r}

theorem WellFormed.placed (h : r.WellFormed) : r.Placed := ⟨h.peerStores, h.leader⟩

theorem mem_getVoters {p : Peer} : p ∈ r.getVoters ↔ p ∈ r.getPeers ∧ p.isLearner = false := by
  simp [getVoters, getPeers]

theorem mem_getLearners {p : Peer} : p ∈ r.getLearners ↔ p ∈ r.getPeers ∧ p.isLearner = true := by
  simp [getLearners, getPeers]

theorem mem_getStoreIds {s : UInt64} : s ∈ r.getStoreIds ↔ ∃ p ∈ r.getPeers, p.storeId = s := by
  simp [getStoreIds, getPeers]

theorem getStorePeer_eq_some {s : UInt64} {p : Peer} (h : r.getStorePeer s = some p) :
    p ∈ r.getPeers ∧ p.storeId = s :=
  ⟨List.mem_of_find?_eq_some h, by simpa using List.find?_some h⟩

theorem getStorePeer_eq_none_iff {s : UInt64} : r.getStorePeer s = none ↔ s ∉ r.getStoreIds := by
  simp [getStorePeer, List.find?_eq_none, mem_getStoreIds, getPeers]

theorem getStorePeer_isSome_iff {s : UInt64} : (r.getStorePeer s).isSome ↔ s ∈ r.getStoreIds := by
  rw [← not_iff_not, Option.not_isSome_iff_eq_none, getStorePeer_eq_none_iff]

theorem getStoreVoter_eq_some {s : UInt64} {p : Peer} (h : r.getStoreVoter s = some p) :
    p ∈ r.getVoters ∧ p.storeId = s :=
  ⟨List.mem_of_find?_eq_some h, by simpa using List.find?_some h⟩

theorem getStoreLearner_eq_some {s : UInt64} {p : Peer} (h : r.getStoreLearner s = some p) :
    p ∈ r.getLearners ∧ p.storeId = s :=
  ⟨List.mem_of_find?_eq_some h, by simpa using List.find?_some h⟩

/-- Two peers of a placed region on one store are one peer. -/
theorem Placed.eq_of_storeId (h : r.Placed) {p q : Peer} (hp : p ∈ r.getPeers) (hq : q ∈ r.getPeers)
    (hs : p.storeId = q.storeId) : p = q :=
  List.inj_on_of_nodup_map h.peerStores hp hq hs

/-- In a placed region, the first peer on a store among those passing `P` is
the peer there, if it passes. -/
theorem Placed.find?_filter_eq (h : r.Placed) (P : Peer → Bool) {p : Peer} (hp : p ∈ r.getPeers)
    (hP : P p = true) : (r.getPeers.filter P).find? (·.storeId == p.storeId) = some p := by
  have hsome : ((r.getPeers.filter P).find? (·.storeId == p.storeId)).isSome := by
    rw [List.find?_isSome]
    exact ⟨p, List.mem_filter.mpr ⟨hp, hP⟩, by simp⟩
  obtain ⟨q, hq⟩ := Option.isSome_iff_exists.mp hsome
  have hqs : q.storeId = p.storeId := by simpa using List.find?_some hq
  rw [hq, h.eq_of_storeId (List.mem_filter.mp (List.mem_of_find?_eq_some hq)).1 hp hqs]

/-- In a placed region, the voter on a store is the peer there. -/
theorem Placed.getStoreVoter_eq (h : r.Placed) {p : Peer} (hp : p ∈ r.getPeers) (hv : p.isLearner = false) :
    r.getStoreVoter p.storeId = some p :=
  h.find?_filter_eq _ hp (by simp [hv])

theorem Placed.getStoreLearner_eq (h : r.Placed) {p : Peer} (hp : p ∈ r.getPeers) (hl : p.isLearner = true) :
    r.getStoreLearner p.storeId = some p :=
  h.find?_filter_eq _ hp hl

/-- The leader and a voter with another id are on different stores. -/
theorem Placed.storeId_ne_of_id_ne (h : r.Placed) {l f : Peer} (hl : r.leader = some l) (hf : f ∈ r.getPeers)
    (hid : l.id ≠ f.id) : l.storeId ≠ f.storeId := by
  intro hs
  obtain ⟨lp, hlp, hlv⟩ := h.leader
  obtain rfl : lp = l := Option.some_inj.mp (hlp.symm.trans hl)
  exact hid (congrArg Peer.id (h.eq_of_storeId (mem_getVoters.mp hlv).1 hf hs))

theorem leaderStoreId_of_leader {l : Peer} (h : r.leader = some l) : r.leaderStoreId = l.storeId := by
  rw [leaderStoreId, h]

theorem leaderOn_iff {s : UInt64} : r.LeaderOn s ↔ (r.leader.isSome && r.leaderStoreId == s) = true := by
  unfold LeaderOn leaderStoreId
  cases r.leader <;> simp

/-- A new peer on a store with none keeps the region placed. -/
theorem Placed.append (h : r.Placed) {p : Peer} (hp : p.storeId ∉ r.getStoreIds) :
    (r.withPeers (r.getPeers ++ [p])).Placed := by
  obtain ⟨l, hl, hlv⟩ := h.leader
  refine ⟨?_, l, hl, ?_⟩
  · rw [getStoreIds_eq, getPeers_withPeers, List.map_append, List.nodup_append]
    refine ⟨h.peerStores, List.nodup_singleton _, ?_⟩
    rintro a ha b hb rfl
    rw [List.map_singleton, List.mem_singleton] at hb
    subst hb
    exact hp ha
  · rw [mem_getVoters] at hlv ⊢
    exact ⟨List.mem_append_left _ hlv.1, hlv.2⟩

/-- Removing the peers on a store the leader is not on keeps the region
placed. -/
theorem Placed.filter (h : r.Placed) {s : UInt64} (hs : ¬ r.LeaderOn s) :
    (r.withPeers (r.getPeers.filter (·.storeId != s))).Placed := by
  obtain ⟨l, hl, hlv⟩ := h.leader
  refine ⟨?_, l, hl, ?_⟩
  · exact h.peerStores.sublist (List.filter_sublist.map _)
  · have hls : l.storeId ≠ s := fun hls => hs ⟨l, hl, hls⟩
    rw [mem_getVoters] at hlv ⊢
    exact ⟨List.mem_filter.mpr ⟨hlv.1, by simpa using hls⟩, hlv.2⟩

/-- Making the peers on a store voters keeps the region placed. -/
theorem Placed.promote (h : r.Placed) (s : UInt64) :
    (r.withPeers (r.getPeers.map fun q => if q.storeId = s then { q with isLearner := false } else q)).Placed := by
  obtain ⟨l, hl, hlv⟩ := h.leader
  have hstore : ∀ q : Peer, (if q.storeId = s then { q with isLearner := false } else q).storeId = q.storeId := by
    intro q
    split <;> rfl
  refine ⟨?_, l, hl, ?_⟩
  · have hmap : (r.getPeers.map fun q => if q.storeId = s then { q with isLearner := false } else q).map
        (·.storeId) = r.getStoreIds := by
      rw [List.map_map]
      exact List.map_congr_left fun q _ => hstore q
    rw [getStoreIds_eq, getPeers_withPeers, hmap]
    exact h.peerStores
  · -- a voter is its own promotion
    rw [mem_getVoters] at hlv ⊢
    have hfix : (if l.storeId = s then { l with isLearner := false } else l) = l := by
      split
      · cases l
        simp_all
      · rfl
    exact ⟨List.mem_map.mpr ⟨l, hlv.1, hfix⟩, hlv.2⟩

end RegionInfo

namespace Schedule

namespace OperatorStep

/-- A new peer `p` on a store that holds none of the region's. -/
def addStorePeer (region : RegionInfo) (p : Peer) : Option RegionInfo :=
  if (region.getStorePeer p.storeId).isSome then none else some (region.withPeers (region.getPeers ++ [p]))

/-- The region once its stores have carried out the step, `none` where they
cannot. -/
def apply (region : RegionInfo) : OperatorStep → Option RegionInfo
  | .transferLeader _ toStore => (region.getStoreVoter toStore).map fun p => { region with leader := some p }
  | .addPeer toStore peerID => addStorePeer region ⟨peerID, toStore, false⟩
  | .addLearner toStore peerID => addStorePeer region ⟨peerID, toStore, true⟩
  | .promoteLearner toStore peerID =>
    if (region.getStoreLearner toStore).any (·.id == peerID) then
      some (region.withPeers (region.getPeers.map fun q =>
        if q.storeId = toStore then { q with isLearner := false } else q))
    else none
  | .removePeer fromStore =>
    if region.leader.isSome && region.leaderStoreId == fromStore then none
    else some (region.withPeers (region.getPeers.filter (·.storeId != fromStore)))
  | .mergeRegion .. => none
  | .splitRegion .. => none

end OperatorStep

/-- The steps carried out in order, `none` from the first that cannot be. -/
def runSteps (region : RegionInfo) (steps : List OperatorStep) : Option RegionInfo :=
  steps.foldlM OperatorStep.apply region

open RegionInfo

variable {region region' : RegionInfo}

/-! ## One step -/

theorem addStorePeer_of_not_mem {p : Peer} (h : p.storeId ∉ region.getStoreIds) :
    OperatorStep.addStorePeer region p = some (region.withPeers (region.getPeers ++ [p])) := by
  rw [OperatorStep.addStorePeer, getStorePeer_eq_none_iff.mpr h]
  rfl

theorem addStorePeer_eq_some {p : Peer} (h : OperatorStep.addStorePeer region p = some region') :
    p.storeId ∉ region.getStoreIds ∧ region' = region.withPeers (region.getPeers ++ [p]) := by
  unfold OperatorStep.addStorePeer at h
  split at h
  · cases h
  · next hs =>
    cases h
    exact ⟨getStorePeer_eq_none_iff.mp (Option.not_isSome_iff_eq_none.mp hs), rfl⟩

theorem apply_removePeer {s : UInt64} (h : ¬ region.LeaderOn s) :
    (OperatorStep.removePeer s).apply region = some (region.withPeers (region.getPeers.filter (·.storeId != s))) := by
  rw [leaderOn_iff, Bool.not_eq_true] at h
  simp only [OperatorStep.apply, h]
  rfl

theorem apply_removePeer_eq_none {s : UInt64} (h : region.LeaderOn s) :
    (OperatorStep.removePeer s).apply region = none := by
  rw [leaderOn_iff] at h
  simp only [OperatorStep.apply, h]
  rfl

/-! ## Runs -/

@[simp] theorem runSteps_nil (region : RegionInfo) : runSteps region [] = some region := rfl

theorem runSteps_cons (region : RegionInfo) (s : OperatorStep) (steps : List OperatorStep) :
    runSteps region (s :: steps) = (s.apply region).bind (runSteps · steps) := by
  simp only [runSteps, List.foldlM_cons]
  rfl

theorem runSteps_append (region : RegionInfo) (l₁ l₂ : List OperatorStep) :
    runSteps region (l₁ ++ l₂) = (runSteps region l₁).bind (runSteps · l₂) := by
  simp only [runSteps, List.foldlM_append]
  rfl

end Schedule

namespace RegionInfo

open Schedule

variable {r r' : RegionInfo}

/-- A step carried out keeps the region placed. -/
theorem Placed.apply (h : r.Placed) {s : OperatorStep} (hs : s.apply r = some r') : r'.Placed := by
  cases s with
  | transferLeader _ toStore =>
    obtain ⟨p, hp, rfl⟩ := Option.map_eq_some_iff.mp hs
    exact ⟨h.peerStores, p, rfl, (getStoreVoter_eq_some hp).1⟩
  | addPeer toStore peerID =>
    obtain ⟨hnew, rfl⟩ := addStorePeer_eq_some hs
    exact h.append hnew
  | addLearner toStore peerID =>
    obtain ⟨hnew, rfl⟩ := addStorePeer_eq_some hs
    exact h.append hnew
  | promoteLearner toStore peerID =>
    simp only [OperatorStep.apply] at hs
    split at hs
    · cases hs
      exact h.promote toStore
    · cases hs
  | removePeer fromStore =>
    by_cases hl : r.LeaderOn fromStore
    · rw [apply_removePeer_eq_none hl] at hs
      cases hs
    · rw [apply_removePeer hl] at hs
      cases hs
      exact h.filter hl
  | mergeRegion => cases hs
  | splitRegion => cases hs

/-- A run keeps the region placed. -/
theorem Placed.runSteps (h : r.Placed) {steps : List OperatorStep} (hrun : Schedule.runSteps r steps = some r') :
    r'.Placed := by
  induction steps generalizing r with
  | nil =>
    cases hrun
    exact h
  | cons s steps ih =>
    rw [runSteps_cons] at hrun
    obtain ⟨r₁, h₁, hrun⟩ := Option.bind_eq_some_iff.mp hrun
    exact ih (h.apply h₁) hrun

end RegionInfo

namespace Schedule

open RegionInfo

variable {region region' : RegionInfo}

/-- A step carried out on a placed region with no pending peers leaves a region
on which the source's `IsFinish` holds. -/
theorem isFinish_of_apply (h : region.Placed) (hpending : region.pendingPeers = []) {s : OperatorStep}
    (hs : s.apply region = some region') : s.isFinish region' = true := by
  have hr' : region'.Placed := h.apply hs
  cases s with
  | transferLeader _ toStore =>
    obtain ⟨p, hp, rfl⟩ := Option.map_eq_some_iff.mp hs
    simp [OperatorStep.isFinish, leaderStoreId, (getStoreVoter_eq_some hp).2]
  | addPeer toStore peerID =>
    obtain ⟨-, rfl⟩ := addStorePeer_eq_some hs
    have hv := hr'.getStoreVoter_eq (p := ⟨peerID, toStore, false⟩) (by simp) rfl
    simp only [OperatorStep.isFinish] at hv ⊢
    simp [hv, getPendingVoter, hpending]
  | addLearner toStore peerID =>
    obtain ⟨-, rfl⟩ := addStorePeer_eq_some hs
    have hl := hr'.getStoreLearner_eq (p := ⟨peerID, toStore, true⟩) (by simp) rfl
    simp only [OperatorStep.isFinish] at hl ⊢
    simp [hl, getPendingLearner, hpending]
  | promoteLearner toStore peerID =>
    simp only [OperatorStep.apply] at hs
    split at hs
    · next hany =>
      cases hs
      obtain ⟨p, hp, hid⟩ := (Option.any_eq_true _ _).mp hany
      obtain ⟨hpl, hps⟩ := getStoreLearner_eq_some hp
      -- the learner found, promoted, is the voter on the store
      have hmem : { p with isLearner := false } ∈ (region.getPeers.map fun q =>
          if q.storeId = toStore then { q with isLearner := false } else q) :=
        List.mem_map.mpr ⟨p, (mem_getLearners.mp hpl).1, if_pos hps⟩
      have hv := hr'.getStoreVoter_eq hmem rfl
      simp only [hps] at hv
      simp only [OperatorStep.isFinish, hv]
      simpa using hid
    · cases hs
  | removePeer fromStore =>
    by_cases hl : region.LeaderOn fromStore
    · rw [apply_removePeer_eq_none hl] at hs
      cases hs
    · rw [apply_removePeer hl] at hs
      cases hs
      simp [OperatorStep.isFinish, getStorePeer_eq_none_iff, getStoreIds_eq]
  | mergeRegion => cases hs
  | splitRegion => cases hs

/-- The steps `CreateMovePeerOperator` and `matchPeerSteps` add a peer with
leave a voter on the store, with raft learners or without. -/
theorem runSteps_addVoter (learner : Bool) (h : region.Placed) {s peerID : UInt64} (hs : s ∉ region.getStoreIds) :
    runSteps region (if learner then [.addLearner s peerID, .promoteLearner s peerID] else [.addPeer s peerID]) =
      some (region.withPeers (region.getPeers ++ [⟨peerID, s, false⟩])) := by
  cases learner with
  | false =>
    rw [if_neg Bool.false_ne_true, runSteps_cons, OperatorStep.apply, addStorePeer_of_not_mem (p := ⟨peerID, s, false⟩) hs]
    rfl
  | true =>
    have hl := (h.append (p := ⟨peerID, s, true⟩) hs).getStoreLearner_eq (p := ⟨peerID, s, true⟩) (by simp) rfl
    -- promoting the learner touches no other peer, since none is on its store
    have hfix : ∀ q ∈ region.getPeers, (if q.storeId = s then { q with isLearner := false } else q) = q :=
      fun q hq => if_neg fun hqs => hs (mem_getStoreIds.mpr ⟨q, hq, hqs⟩)
    rw [if_pos rfl, runSteps_cons, OperatorStep.apply, addStorePeer_of_not_mem (p := ⟨peerID, s, true⟩) hs,
      Option.bind_some, runSteps_cons, OperatorStep.apply, hl]
    simp [List.map_congr_left hfix]

/-! ## Move-peer operators -/

theorem leaderTransferTarget_eq_some {cluster : Cluster} {storeID id : UInt64}
    (h : leaderTransferTarget cluster region storeID = some id) :
    region.LeaderOn storeID ∧ ∃ f ∈ region.getFollowers, f.storeId = id := by
  unfold leaderTransferTarget at h
  split at h
  · next hl =>
    refine ⟨leaderOn_iff.mpr hl, ?_⟩
    obtain ⟨f, hf, rfl⟩ := List.mem_map.mp (List.mem_of_find?_eq_some h)
    exact ⟨f, hf, rfl⟩
  · cases h

/-- A peer not on the leader's store is removed with no leader transfer. -/
theorem removePeerSteps_of_not_leaderOn {cluster : Cluster} {storeID : UInt64} (h : ¬ region.LeaderOn storeID) :
    (removePeerSteps cluster region storeID).2 = [.removePeer storeID] := by
  cases ht : leaderTransferTarget cluster region storeID with
  | none => simp [removePeerSteps, ht]
  | some id => exact absurd (leaderTransferTarget_eq_some ht).1 h

/-- With the leader on the store and no follower to take over,
`removePeerSteps` removes the leader's peer, which no region with that leader
can do. -/
theorem runSteps_removePeerSteps_eq_none {cluster : Cluster} {storeID : UInt64} {cur : RegionInfo}
    (hl : region.LeaderOn storeID) (ht : leaderTransferTarget cluster region storeID = none)
    (hleader : cur.leader = region.leader) : runSteps cur (removePeerSteps cluster region storeID).2 = none := by
  have hcur : cur.LeaderOn storeID := by
    unfold LeaderOn
    rw [hleader]
    exact hl
  simp only [removePeerSteps, ht, runSteps_cons, apply_removePeer_eq_none hcur, Option.bind_none]

/-- Otherwise the steps of `removePeerSteps` run on every placed region that
has the region's peers and leader, and remove the peer on the store. -/
theorem runSteps_removePeerSteps {cluster : Cluster} {storeID : UInt64} {cur : RegionInfo} (hcur : cur.Placed)
    (hleader : cur.leader = region.leader) (hsub : ∀ p ∈ region.getPeers, p ∈ cur.getPeers)
    (hok : region.LeaderOn storeID → (leaderTransferTarget cluster region storeID).isSome) :
    ∃ r', runSteps cur (removePeerSteps cluster region storeID).2 = some r' ∧
      r'.getPeers = cur.getPeers.filter (·.storeId != storeID) := by
  cases ht : leaderTransferTarget cluster region storeID with
  | none =>
    have hl : ¬ cur.LeaderOn storeID := by
      intro hl
      have hsome := hok (by unfold LeaderOn at hl ⊢; rwa [hleader] at hl)
      rw [ht] at hsome
      cases hsome
    have hrun : runSteps cur (removePeerSteps cluster region storeID).2 =
        some (cur.withPeers (cur.getPeers.filter (·.storeId != storeID))) := by
      simp only [removePeerSteps, ht, runSteps_cons, apply_removePeer hl, Option.bind_some, runSteps_nil]
    exact ⟨_, hrun, rfl⟩
  | some id =>
    obtain ⟨⟨l, hl, hls⟩, f, hf, rfl⟩ := leaderTransferTarget_eq_some ht
    have hfv := mem_getVoters.mp (List.mem_of_mem_filter hf)
    have hvoter : cur.getStoreVoter f.storeId = some f := hcur.getStoreVoter_eq (hsub f hfv.1) hfv.2
    have hid : l.id ≠ f.id := by
      have hne := (List.mem_filter.mp hf).2
      simpa [leaderId, hl] using hne
    -- the follower is on another store than the leader, so the removal is not the new leader's
    have hne : l.storeId ≠ f.storeId := hcur.storeId_ne_of_id_ne (hleader.trans hl) (hsub f hfv.1) hid
    have hmoved : ¬ ({ cur with leader := some f } : RegionInfo).LeaderOn storeID := by
      rintro ⟨p, hp, hps⟩
      cases hp
      exact hne (hls.trans hps.symm)
    have htransfer : (OperatorStep.transferLeader storeID f.storeId).apply cur = some { cur with leader := some f } := by
      simp only [OperatorStep.apply, hvoter, Option.map_some]
    have hrun : runSteps cur (removePeerSteps cluster region storeID).2 =
        some (({ cur with leader := some f } : RegionInfo).withPeers
          (({ cur with leader := some f } : RegionInfo).getPeers.filter (·.storeId != storeID))) := by
      simp only [removePeerSteps, ht, runSteps_cons, htransfer, apply_removePeer hmoved, Option.bind_some, runSteps_nil]
    exact ⟨_, hrun, rfl⟩

section MovePeer

variable {desc : String} {cluster : Cluster} {kind : OperatorKind} {oldStore newStore peerID : UInt64} {now : Int}

theorem createMovePeerOperator_steps :
    (createMovePeerOperator desc cluster region kind oldStore newStore peerID now).steps =
      (if cluster.isRaftLearnerEnabled then [.addLearner newStore peerID, .promoteLearner newStore peerID]
        else [.addPeer newStore peerID]) ++ (removePeerSteps cluster region oldStore).2 := by
  unfold createMovePeerOperator
  rcases removePeerSteps cluster region oldStore with ⟨removeKind, steps⟩
  rfl

/-- `removePeerSteps` ends with the removal of the store's peer. -/
theorem removePeer_mem_removePeerSteps (storeID : UInt64) :
    OperatorStep.removePeer storeID ∈ (removePeerSteps cluster region storeID).2 := by
  unfold removePeerSteps
  split <;> simp

/-- A move removes the peer on the store it vacates. -/
theorem removePeer_mem_createMovePeerOperator :
    OperatorStep.removePeer oldStore ∈ (createMovePeerOperator desc cluster region kind oldStore newStore peerID now).steps := by
  rw [createMovePeerOperator_steps]
  exact List.mem_append_right _ (removePeer_mem_removePeerSteps oldStore)

/-- The new peer is a voter before anything is removed. -/
theorem createMovePeerOperator_adds_first (hr : region.Placed) (hnew : newStore ∉ region.getStoreIds) :
    ∃ pre rest, (createMovePeerOperator desc cluster region kind oldStore newStore peerID now).steps = pre ++ rest ∧
      (∀ f, OperatorStep.removePeer f ∉ pre) ∧
      ∃ r₁, runSteps region pre = some r₁ ∧ r₁.getStoreVoter newStore = some ⟨peerID, newStore, false⟩ := by
  refine ⟨_, _, createMovePeerOperator_steps, fun f hf => ?_, _, runSteps_addVoter _ hr hnew, ?_⟩
  · split at hf <;> simp at hf
  · exact (hr.append hnew).getStoreVoter_eq (p := ⟨peerID, newStore, false⟩) (by simp) rfl

theorem runSteps_createMovePeerOperator_eq_none (hr : region.Placed) (hnew : newStore ∉ region.getStoreIds)
    (hl : region.LeaderOn oldStore) (ht : leaderTransferTarget cluster region oldStore = none) :
    runSteps region (createMovePeerOperator desc cluster region kind oldStore newStore peerID now).steps = none := by
  rw [createMovePeerOperator_steps, runSteps_append, runSteps_addVoter _ hr hnew, Option.bind_some]
  exact runSteps_removePeerSteps_eq_none hl ht rfl

theorem runSteps_createMovePeerOperator (hr : region.Placed) (hnew : newStore ∉ region.getStoreIds)
    (hok : region.LeaderOn oldStore → (leaderTransferTarget cluster region oldStore).isSome) :
    ∃ r', runSteps region (createMovePeerOperator desc cluster region kind oldStore newStore peerID now).steps = some r' ∧
      r'.getPeers = (region.getPeers ++ [(⟨peerID, newStore, false⟩ : Peer)]).filter (·.storeId != oldStore) := by
  obtain ⟨r', hrun, hpeers⟩ := @runSteps_removePeerSteps region cluster oldStore _
    (hr.append (p := ⟨peerID, newStore, false⟩) hnew) rfl (fun p hp => List.mem_append_left _ hp) hok
  refine ⟨r', ?_, hpeers⟩
  rw [createMovePeerOperator_steps, runSteps_append, runSteps_addVoter _ hr hnew, Option.bind_some, hrun]

/-- The stores after the move: the old one gone, the new one added. -/
theorem getStoreIds_move (hr : region.Placed) (hold : oldStore ∈ region.getStoreIds)
    (hnew : newStore ∉ region.getStoreIds) :
    (((region.getPeers ++ [(⟨peerID, newStore, false⟩ : Peer)]).filter (·.storeId != oldStore)).map (·.storeId)).Perm
      (newStore :: region.getStoreIds.erase oldStore) := by
  have hne : newStore ≠ oldStore := fun h => hnew (h ▸ hold)
  rw [show (fun x : Peer => x.storeId != oldStore) = (fun s => s != oldStore) ∘ (·.storeId) from rfl,
    ← List.filter_map, List.map_append, ← getStoreIds_eq, List.filter_append, ← hr.peerStores.erase_eq_filter]
  simp [hne]

/-- A move-peer operator runs to its end exactly when the leader is not on
the old store or `removePeerSteps` found a follower to take over. -/
theorem runSteps_createMovePeerOperator_isSome_iff (hr : region.Placed) (hnew : newStore ∉ region.getStoreIds) :
    (runSteps region (createMovePeerOperator desc cluster region kind oldStore newStore peerID now).steps).isSome ↔
      (region.LeaderOn oldStore → (leaderTransferTarget cluster region oldStore).isSome) := by
  constructor
  · intro hsome hl
    cases ht : leaderTransferTarget cluster region oldStore with
    | none =>
      rw [runSteps_createMovePeerOperator_eq_none hr hnew hl ht] at hsome
      cases hsome
    | some id => rfl
  · intro hok
    obtain ⟨r', hrun, -⟩ := @runSteps_createMovePeerOperator region desc cluster kind oldStore newStore peerID now hr hnew hok
    rw [hrun]
    rfl

/-- Whenever a move-peer operator runs to its end, the old store's peer has
made way for a voter on the new store. -/
theorem getStoreIds_runSteps_createMovePeerOperator (hr : region.Placed) (hold : oldStore ∈ region.getStoreIds)
    (hnew : newStore ∉ region.getStoreIds) {r' : RegionInfo}
    (hrun : runSteps region (createMovePeerOperator desc cluster region kind oldStore newStore peerID now).steps =
      some r') :
    r'.Placed ∧ r'.getStoreIds.Perm (newStore :: region.getStoreIds.erase oldStore) := by
  have hok := (runSteps_createMovePeerOperator_isSome_iff hr hnew).mp (by rw [hrun]; rfl)
  obtain ⟨r'', hrun', hpeers⟩ := @runSteps_createMovePeerOperator region desc cluster kind oldStore newStore peerID now hr hnew hok
  obtain rfl : r' = r'' := Option.some_inj.mp (hrun.symm.trans hrun')
  refine ⟨hr.runSteps hrun, ?_⟩
  rw [getStoreIds_eq, hpeers]
  exact getStoreIds_move hr hold hnew

end MovePeer

/-! ## Merge peer matching -/

section MatchPeers

variable {cluster : Cluster} {source target cur : RegionInfo}

/-- The first loop of `matchPeerSteps`, run on a region whose stores agree
with the source's on `ids`: a voter is added on each of `ids` the source
lacks, in order. -/
theorem runSteps_addMissingPeers {ids : List UInt64} (hids : ids.Nodup) {add : List OperatorStep}
    (h : addMissingPeers cluster source ids = some add) (hcur : cur.Placed)
    (hagree : ∀ id ∈ ids, id ∈ cur.getStoreIds ↔ id ∈ source.getStoreIds) :
    ∃ added : List Peer, runSteps cur add = some (cur.withPeers (cur.getPeers ++ added)) ∧
      added.map (·.storeId) = ids.filter (· ∉ source.getStoreIds) ∧ ∀ p ∈ added, p.isLearner = false := by
  induction ids generalizing cur add with
  | nil =>
    cases h
    exact ⟨[], by simp, rfl, by simp⟩
  | cons id ids ih =>
    obtain ⟨hid, hids⟩ := List.nodup_cons.mp hids
    have hagree' : ∀ i ∈ ids, i ∈ cur.getStoreIds ↔ i ∈ source.getStoreIds :=
      fun i hi => hagree i (List.mem_cons_of_mem _ hi)
    unfold addMissingPeers at h
    split at h
    · next hsrc =>
      -- the source has a peer on the store: nothing to add for it
      obtain ⟨added, hrun, hmap, hvoters⟩ := ih hids h hcur hagree'
      refine ⟨added, hrun, ?_, hvoters⟩
      rw [hmap, List.filter_cons_of_neg (by simpa using getStorePeer_isSome_iff.mp hsrc)]
    · next hsrc =>
      obtain ⟨peer, -, h⟩ := Option.bind_eq_some_iff.mp h
      obtain ⟨rest, hrest, h⟩ := Option.bind_eq_some_iff.mp h
      cases h
      have hout : id ∉ source.getStoreIds := fun hin => hsrc (getStorePeer_isSome_iff.mpr hin)
      have hcurout : id ∉ cur.getStoreIds := fun hin => hout ((hagree id List.mem_cons_self).mp hin)
      have hagree₁ : ∀ i ∈ ids,
          i ∈ (cur.withPeers (cur.getPeers ++ [⟨peer.id, id, false⟩])).getStoreIds ↔ i ∈ source.getStoreIds := by
        intro i hi
        have hne : i ≠ id := fun hi' => hid (hi' ▸ hi)
        rw [← hagree' i hi]
        simp [getStoreIds_eq, hne]
      obtain ⟨added, hrun, hmap, hvoters⟩ := ih hids hrest (hcur.append (p := ⟨peer.id, id, false⟩) hcurout) hagree₁
      refine ⟨⟨peer.id, id, false⟩ :: added, ?_, ?_, ?_⟩
      · rw [runSteps_append, runSteps_addVoter _ hcur hcurout, Option.bind_some, hrun]
        simp
      · rw [List.map_cons, hmap, List.filter_cons_of_pos (by simpa using hout)]
      · intro p hp
        rcases List.mem_cons.mp hp with rfl | hp
        · rfl
        · exact hvoters p hp

theorem map_storeId_filter (l : List Peer) (q : UInt64 → Bool) :
    (l.filter fun p => q p.storeId).map (·.storeId) = (l.map (·.storeId)).filter q := by
  rw [List.filter_map]
  rfl

theorem mem_getIntersectionStores {a b : List Peer} {s : UInt64} :
    s ∈ getIntersectionStores a b ↔ s ∈ b.map (·.storeId) ∧ s ∈ a.map (·.storeId) := by
  simp [getIntersectionStores]

/-- The leader transfer of `matchPeerSteps`, run once every target store holds
a voter: it leaves the leader on a target store. -/
theorem runSteps_matchTransfer (hcur : cur.Placed) (hleader : cur.leader = source.leader)
    (hlearners : cur.getLearners = []) (hs : source.Placed) (ht : target.Placed)
    (htarget : ∀ s ∈ target.getStoreIds, s ∈ cur.getStoreIds) :
    ∃ r', runSteps cur
        (if (getIntersectionStores source.getPeers target.getPeers).contains source.leaderStoreId then []
          else [.transferLeader source.leaderStoreId target.leaderStoreId]) = some r' ∧
      r'.getPeers = cur.getPeers ∧ ∃ l, r'.leader = some l ∧ l.storeId ∈ target.getStoreIds := by
  obtain ⟨sl, hsl, hslv⟩ := hs.leader
  split
  · next hfound =>
    -- the source leader's store is shared with the target: no transfer
    have hin := (mem_getIntersectionStores.mp (List.contains_iff_mem.mp hfound)).1
    refine ⟨cur, rfl, rfl, sl, hleader.trans hsl, ?_⟩
    rw [← leaderStoreId_of_leader hsl]
    exact hin
  · obtain ⟨tl, htl, htlv⟩ := ht.leader
    have htls : tl.storeId ∈ cur.getStoreIds :=
      htarget _ (mem_getStoreIds.mpr ⟨tl, (mem_getVoters.mp htlv).1, rfl⟩)
    obtain ⟨q, hq, hqs⟩ := mem_getStoreIds.mp htls
    -- the peer there is a voter, as the region has no learners
    have hqv : q.isLearner = false := by
      cases hlq : q.isLearner
      · rfl
      · have : q ∈ cur.getLearners := mem_getLearners.mpr ⟨hq, hlq⟩
        rw [hlearners] at this
        cases this
    have hvoter : cur.getStoreVoter target.leaderStoreId = some q := by
      rw [leaderStoreId_of_leader htl, ← hqs]
      exact hcur.getStoreVoter_eq hq hqv
    refine ⟨{ cur with leader := some q }, ?_, rfl, q, rfl, ?_⟩
    · simp [runSteps_cons, OperatorStep.apply, hvoter]
    · rw [hqs]
      exact mem_getStoreIds.mpr ⟨tl, (mem_getVoters.mp htlv).1, rfl⟩

/-- Removals from stores the leader is not on run, and drop the peers there. -/
theorem runSteps_removePeers {ss : List UInt64} (hl : ∀ l, cur.leader = some l → l.storeId ∉ ss) :
    runSteps cur (ss.map .removePeer) = some (cur.withPeers (cur.getPeers.filter fun p => !ss.contains p.storeId)) := by
  induction ss generalizing cur with
  | nil => simp
  | cons s ss ih =>
    have hnot : ¬ cur.LeaderOn s := by
      rintro ⟨l, hcl, rfl⟩
      exact hl l hcl List.mem_cons_self
    have hl₁ : ∀ l, (cur.withPeers (cur.getPeers.filter (·.storeId != s))).leader = some l → l.storeId ∉ ss :=
      fun l hcl hin => hl l hcl (List.mem_cons_of_mem _ hin)
    rw [List.map_cons, runSteps_cons, apply_removePeer hnot, Option.bind_some, ih hl₁]
    simp only [withPeers_withPeers, getPeers_withPeers, List.filter_filter]
    congr 2
    exact List.filter_congr fun p _ => by simp [Bool.and_comm, bne, beq_eq_decide]

/-- Removals that reach the leader's store stop there: the leader's own peer
is not removed. -/
theorem runSteps_removePeers_eq_none {ss : List UInt64} {l : Peer} (hl : cur.leader = some l)
    (hin : l.storeId ∈ ss) : runSteps cur (ss.map .removePeer) = none := by
  induction ss generalizing cur with
  | nil => exact absurd hin List.not_mem_nil
  | cons s ss ih =>
    rw [List.map_cons, runSteps_cons]
    by_cases hon : cur.LeaderOn s
    · rw [apply_removePeer_eq_none hon, Option.bind_none]
    · -- the leader is not on `s`, so it is on a later store of the list
      have hne : l.storeId ≠ s := fun h => hon ⟨l, hl, h⟩
      rw [apply_removePeer hon, Option.bind_some]
      exact ih hl ((List.mem_cons.mp hin).resolve_left hne)

/-- The steps of `matchPeerSteps` from a source without learners run to the
end, and leave the source on the target's stores. -/
theorem runSteps_matchPeerSteps {steps : List OperatorStep} {kind : OperatorKind} (hs : source.Placed)
    (ht : target.Placed) (hlearners : source.getLearners = [])
    (h : matchPeerSteps cluster source target = some (steps, kind)) :
    ∃ r', runSteps source steps = some r' ∧ r'.Placed ∧ r'.getStoreIds.Perm target.getStoreIds := by
  simp only [matchPeerSteps, Option.bind_eq_bind] at h
  obtain ⟨add, hadd, h⟩ := Option.bind_eq_some_iff.mp h
  simp only [Option.pure_def, Option.some.injEq, Prod.mk.injEq] at h
  obtain ⟨hsteps, -⟩ := h
  -- the adds leave voters on the source's stores and the target's
  obtain ⟨added, hrun₁, hmap, hvoters⟩ := runSteps_addMissingPeers (List.nodup_dedup _) hadd hs fun _ _ => Iff.rfl
  have hr₁ := hs.runSteps hrun₁
  have hl₁ : (source.withPeers (source.getPeers ++ added)).getLearners = [] := by
    have hadded : added.filter (fun p => p.isLearner) = [] :=
      List.filter_eq_nil_iff.mpr fun p hp => by simp [hvoters p hp]
    show (source.getPeers ++ added).filter (fun p => p.isLearner) = []
    rw [List.filter_append, hadded, List.append_nil]
    exact hlearners
  have hstores₁ : ∀ s, s ∈ (source.withPeers (source.getPeers ++ added)).getStoreIds ↔
      s ∈ source.getStoreIds ∨ s ∈ target.getStoreIds := by
    intro s
    rw [getStoreIds_eq, getPeers_withPeers, List.map_append, List.mem_append, hmap, List.mem_filter, List.mem_dedup,
      ← getStoreIds_eq, ← getStoreIds_eq, decide_eq_true_eq]
    tauto
  -- the transfer leaves the leader on a target store
  obtain ⟨r₂, hrun₂, hpeers₂, l, hl, hls⟩ :=
    @runSteps_matchTransfer source target _ hr₁ rfl hl₁ hs ht fun s hs => (hstores₁ s).mpr (.inr hs)
  -- the removals are of source stores the target lacks, so none is the leader's
  set ss := (source.getPeers.filter fun p => !((target.getPeers.map (·.storeId)).dedup.contains p.storeId)).map
    (·.storeId) with hss
  have hremove : (source.getPeers.filter fun p => !((target.getPeers.map (·.storeId)).dedup.contains p.storeId)).map
      (fun p => OperatorStep.removePeer p.storeId) = ss.map .removePeer := by
    rw [hss, List.map_map]
    rfl
  have hmem_ss : ∀ s, s ∈ ss ↔ s ∈ source.getStoreIds ∧ s ∉ target.getStoreIds := by
    intro s
    rw [hss, map_storeId_filter _ fun s => !((target.getPeers.map (·.storeId)).dedup.contains s), List.mem_filter,
      ← getStoreIds_eq, ← getStoreIds_eq]
    simp
  have hleader₂ : ∀ l', r₂.leader = some l' → l'.storeId ∉ ss := by
    intro l' hl' hin
    rw [hl, Option.some_inj] at hl'
    subst hl'
    exact ((hmem_ss _).mp hin).2 hls
  have hrun : runSteps source steps = some (r₂.withPeers (r₂.getPeers.filter fun p => !ss.contains p.storeId)) := by
    rw [← hsteps, runSteps_append, runSteps_append, hrun₁, Option.bind_some, hrun₂, Option.bind_some, hremove,
      runSteps_removePeers hleader₂]
  refine ⟨_, hrun, hs.runSteps hrun, ?_⟩
  rw [List.perm_ext_iff_of_nodup (hs.runSteps hrun).peerStores ht.peerStores]
  intro s
  have hkept : (!ss.contains s) = true ↔ s ∉ ss := by simp
  rw [getStoreIds_eq, getPeers_withPeers, map_storeId_filter _ fun s => !ss.contains s, List.mem_filter, hpeers₂,
    ← getStoreIds_eq, hstores₁, hkept, hmem_ss]
  tauto

end MatchPeers

/-- Two up stores, `1` and `2`, and an allocator that numbers new peers `2`. -/
def twoStoreCluster : Cluster :=
  Cluster.ofRegions defaultScheduleOption 0 [upStore 1 [], upStore 2 []] RegionsInfo.newRegionsInfo (fun _ _ => 0)
    (fun storeId => some ⟨2, storeId, false⟩) false (fun _ => false)

/-- A merge source on stores `1`, `2` and `3`, led from store `1`. -/
def mergeFrom : RegionInfo :=
  newRegionInfo ⟨3, [], [], ⟨1, 1⟩, [⟨31, 1, false⟩, ⟨32, 2, false⟩, ⟨33, 3, false⟩]⟩ (some ⟨31, 1, false⟩)

/-- A merge target on stores `2`, `3` and `4`, led from store `4`. -/
def mergeInto : RegionInfo :=
  newRegionInfo ⟨4, [], [], ⟨1, 1⟩, [⟨42, 2, false⟩, ⟨43, 3, false⟩, ⟨44, 4, false⟩]⟩ (some ⟨44, 4, false⟩)

theorem placed_mergeFrom : mergeFrom.Placed := ⟨by decide, ⟨31, 1, false⟩, rfl, by decide⟩

theorem placed_mergeInto : mergeInto.Placed := ⟨by decide, ⟨44, 4, false⟩, rfl, by decide⟩

/-- The source gains a voter on store `4`, hands it the leadership and drops
its peer on store `1`. -/
theorem mergeFrom_reaches_mergeInto :
    ∃ r', runSteps mergeFrom [.addPeer 4 2, .transferLeader 1 4, .removePeer 1] = some r' ∧ r'.Placed ∧
      r'.getStoreIds.Perm mergeInto.getStoreIds := by
  have h : matchPeerSteps twoStoreCluster mergeFrom mergeInto =
      some ([.addPeer 4 2, .transferLeader 1 4, .removePeer 1], opRegion ||| opLeader) := by
    decide
  exact runSteps_matchPeerSteps placed_mergeFrom placed_mergeInto (by decide) h

/-! ## A move with no follower to take over -/

/-- A region with one peer, its leader, on store `1`. -/
def soloRegion : RegionInfo := newRegionInfo ⟨1, [], [], ⟨1, 1⟩, [⟨1, 1, false⟩]⟩ (some ⟨1, 1, false⟩)

theorem placed_soloRegion : soloRegion.Placed := ⟨by decide, ⟨1, 1, false⟩, rfl, by decide⟩

theorem move_peer_removes_leader :
    (∀ (desc : String) (cluster : Cluster) (region : RegionInfo) (kind : OperatorKind)
        (oldStore newStore peerID : UInt64) (now : Int),
      region.Placed → oldStore ∈ region.getStoreIds → newStore ∉ region.getStoreIds →
      (∃ pre rest, (createMovePeerOperator desc cluster region kind oldStore newStore peerID now).steps = pre ++ rest ∧
        (∀ f, OperatorStep.removePeer f ∉ pre) ∧
        ∃ r₁, runSteps region pre = some r₁ ∧ r₁.getStoreVoter newStore = some ⟨peerID, newStore, false⟩) ∧
      ((runSteps region (createMovePeerOperator desc cluster region kind oldStore newStore peerID now).steps).isSome ↔
        (region.LeaderOn oldStore → (leaderTransferTarget cluster region oldStore).isSome)) ∧
      ∀ r', runSteps region (createMovePeerOperator desc cluster region kind oldStore newStore peerID now).steps =
          some r' → r'.Placed ∧ r'.getStoreIds.Perm (newStore :: region.getStoreIds.erase oldStore)) ∧
    soloRegion.Placed ∧ soloRegion.LeaderOn 1 ∧
    (createMovePeerOperator "replace" twoStoreCluster soloRegion opReplica 1 2 2 0).steps =
      [.addPeer 2 2, .removePeer 1] ∧
    runSteps soloRegion (createMovePeerOperator "replace" twoStoreCluster soloRegion opReplica 1 2 2 0).steps = none := by
  refine ⟨fun desc cluster region kind oldStore newStore peerID now hr hold hnew =>
    ⟨createMovePeerOperator_adds_first hr hnew, runSteps_createMovePeerOperator_isSome_iff hr hnew,
      fun r' hrun => getStoreIds_runSteps_createMovePeerOperator hr hold hnew hrun⟩,
    placed_soloRegion, ⟨_, rfl, rfl⟩, by decide, by decide⟩

end Schedule

end PlacementDriver
