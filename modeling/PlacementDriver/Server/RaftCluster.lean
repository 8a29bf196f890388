import PlacementDriver.Server.Staleness
import PlacementDriver.Schedule.OperatorController

/-!
# The cluster and its running operators

`RaftCluster` (in `server/cluster.go` and `server/cluster_worker.go`) joins
the region cache to the operator controller of its coordinator. A region
heartbeat goes to the cache (`clusterInfo.handleRegionHeartbeat`) and, when
the cache takes it, to `Dispatch`. The background job runs `checkOperators`
on every tick, and the checkers and schedulers add operators. The state here
is the cache, the controller and the clock. A run is a list of events:
heartbeats, `AddOperator` calls, `checkOperators` and clock advances.

The two operators of a merge are stored, checked and removed each under its
own region. Both are of normal priority, and the passive one, of kind
`kind | OpMerge`, times out after `LeaderOperatorWaitTime` even when the
active one moves peers and waits `RegionOperatorWaitTime`.

## Main results

* `Valid.step`, `valid_run`: along any run of heartbeats of well-formed
  regions nothing panics, the cache stays consistent and every operator stays
  under its region's id.
* `merge_pair_held`: after `AddOperator` takes the two halves of a merge,
  both stay in the controller along every run that is quiet for them
  (`runQuiet`): within `LeaderOperatorWaitTime`, no operator of high priority
  for either region, no heartbeat that changes the target's range, and
  `checkOperators` only while both regions are cached.
* `merge_pair_split_by_timeout`: past `LeaderOperatorWaitTime`,
  `checkOperators` removes the passive half alone, while the active half
  stays with its source region cached.
-/

namespace PlacementDriver

namespace Server

open Schedule Metapb RegionsInfo

/-- The state of `RaftCluster` that heartbeats, the operator controller and
the background job touch. -/
structure RaftCluster where
  cachedCluster : ClusterInfo
  /-- `coordinator.opController` -/
  opController : OperatorController
  /-- `time.Now()`, in nanoseconds -/
  now : Int

/-- The error `HandleRegionHeartbeat` returns. -/
inductive RegionHeartbeatError where
  | cluster (e : HeartbeatError)
  /-- `invalid region, zero region peer count` -/
  | zeroPeerCount (regionMeta : Metapb.Region)
deriving DecidableEq, Repr

/-- What happens to the cluster. -/
inductive ClusterEvent where
  /-- a region heartbeat, with the stores' total flow rates -/
  | regionHeartbeat (totalBytesWriteRate totalBytesReadRate : Float) (region : RegionInfo)
  /-- a checker or a scheduler adds operators -/
  | addOperator (ops : List Operator)
  /-- the background job's `checkOperators` -/
  | checkOperators
  /-- the clock moves on by `d` nanoseconds -/
  | tick (d : Nat)

/-- An event whose heartbeat, if it is one, is of a well-formed region. -/
def ClusterEvent.WellFormed : ClusterEvent → Prop
  | .regionHeartbeat _ _ region => region.WellFormed
  | _ => True

namespace RaftCluster

/-- A cluster that has seen no heartbeat, at the time `now`. -/
def newRaftCluster (kv : Option RegionKV) (now : Int) : RaftCluster :=
  ⟨newClusterInfo kv, .newOperatorController, now⟩

variable (c : RaftCluster)

/-- `HandleRegionHeartbeat(region)`; a panic is `none`. -/
def handleRegionHeartbeat (simulating : Bool) (totalBytesWriteRate totalBytesReadRate : Float)
    (region : RegionInfo) : Option (RaftCluster × Option RegionHeartbeatError) := do
  let (cachedCluster, err) ← c.cachedCluster.handleRegionHeartbeat simulating
    ⟨c.now, totalBytesWriteRate, totalBytesReadRate⟩ region
  let c := { c with cachedCluster := cachedCluster }
  match err with
  | some e => pure (c, some (.cluster e))
  | none =>
    if region.getPeers.isEmpty then pure (c, some (.zeroPeerCount region.regionMeta))
    else pure ({ c with opController := (c.opController.dispatch c.now region).1 }, none)

/-- `opController.AddOperator(ops...)`, against the region cache. -/
def addOperator (ops : List Operator) : RaftCluster × Bool :=
  let r := c.opController.addOperator c.cachedCluster.regions.getRegion ops
  ({ c with opController := r.1 }, r.2)

/-- `checkOperators()`. -/
def checkOperators : RaftCluster :=
  { c with opController := c.opController.checkOperators c.cachedCluster.regions.getRegion c.now }

/-- One event; a panic is `none`. -/
def step (simulating : Bool) : ClusterEvent → Option RaftCluster
  | .regionHeartbeat totalBytesWriteRate totalBytesReadRate region =>
    -- `RegionHeartbeat` of the gRPC service answers a region of id 0, or with no leader, itself
    if region.getID == 0 || region.leader.isNone then some c
    else (c.handleRegionHeartbeat simulating totalBytesWriteRate totalBytesReadRate region).map (·.1)
  | .addOperator ops => some (c.addOperator ops).1
  | .checkOperators => some c.checkOperators
  | .tick d => some { c with now := c.now + d }

/-- A run of events; a panic is `none`. -/
def run (simulating : Bool) : RaftCluster → List ClusterEvent → Option RaftCluster
  | c, [] => some c
  | c, e :: rest => (c.step simulating e).bind (run simulating · rest)

/-! ## What one event does -/

variable {c}

/-- A heartbeat leaves the clock, and checks the region's operator or leaves
the controller. -/
theorem handleRegionHeartbeat_opController {simulating : Bool} {w r : Float} {region : RegionInfo}
    {c' : RaftCluster} {err : Option RegionHeartbeatError}
    (h : c.handleRegionHeartbeat simulating w r region = some (c', err)) :
    c'.now = c.now ∧
      (c'.opController = c.opController ∨ c'.opController = (c.opController.dispatch c.now region).1) := by
  simp only [handleRegionHeartbeat, Option.bind_eq_bind] at h
  obtain ⟨⟨cachedCluster, err'⟩, -, h⟩ := Option.bind_eq_some_iff.mp h
  simp only at h
  split at h
  · cases h
    exact ⟨rfl, .inl rfl⟩
  · split at h <;> cases h
    · exact ⟨rfl, .inl rfl⟩
    · exact ⟨rfl, .inr rfl⟩

theorem step_regionHeartbeat {simulating : Bool} {w r : Float} {region : RegionInfo} {c' : RaftCluster}
    (h : c.step simulating (.regionHeartbeat w r region) = some c') :
    c' = c ∨ ∃ err, c.handleRegionHeartbeat simulating w r region = some (c', err) := by
  simp only [step] at h
  split at h
  · exact .inl (Option.some.inj h).symm
  · obtain ⟨⟨c'', err⟩, hres, rfl⟩ := Option.map_eq_some_iff.mp h
    exact .inr ⟨err, hres⟩

/-- A heartbeat the cache takes, of a region with peers, reaches `Dispatch`. -/
theorem step_regionHeartbeat_of_accepted {simulating : Bool} {w r : Float} {region : RegionInfo}
    {cachedCluster : ClusterInfo} (hid : region.getID ≠ 0) (hleader : region.leader.isSome = true)
    (hpeers : region.getPeers ≠ [])
    (h : c.cachedCluster.handleRegionHeartbeat simulating ⟨c.now, w, r⟩ region = some (cachedCluster, none)) :
    c.step simulating (.regionHeartbeat w r region) =
      some { c with cachedCluster := cachedCluster, opController := (c.opController.dispatch c.now region).1 } := by
  have hleader' : region.leader ≠ none := Option.isSome_iff_ne_none.mp hleader
  simp [step, handleRegionHeartbeat, h, hid, hleader', hpeers]

@[simp] theorem run_nil (simulating : Bool) : c.run simulating [] = some c := rfl

theorem run_cons {simulating : Bool} {e : ClusterEvent} {rest : List ClusterEvent} {c' : RaftCluster}
    (hstep : c.step simulating e = some c') : c.run simulating (e :: rest) = c'.run simulating rest := by
  simp [run, hstep]

/-! ## The invariant of every run -/

/-- A consistent cache, and every operator under its region's id. -/
structure Valid (c : RaftCluster) : Prop where
  cachedCluster : c.cachedCluster.Valid
  keyed : c.opController.Keyed

theorem valid_newRaftCluster (kv : Option RegionKV) (now : Int) : (newRaftCluster kv now).Valid :=
  ⟨ClusterInfo.valid_newClusterInfo kv, OperatorController.keyed_newOperatorController⟩

theorem Valid.handleRegionHeartbeat (h : c.Valid) {region : RegionInfo} (hw : region.WellFormed)
    (simulating : Bool) (w r : Float) :
    ∃ c' err, c.handleRegionHeartbeat simulating w r region = some (c', err) ∧ c'.Valid := by
  obtain ⟨cachedCluster, err, hres, hvalid⟩ := h.cachedCluster.handleRegionHeartbeat hw simulating ⟨c.now, w, r⟩
  simp only [RaftCluster.handleRegionHeartbeat, hres, Option.bind_eq_bind, Option.bind_some]
  cases err with
  | some e => exact ⟨_, _, rfl, hvalid, h.keyed⟩
  | none =>
    simp only
    split_ifs
    · exact ⟨_, _, rfl, hvalid, h.keyed⟩
    · exact ⟨_, _, rfl, hvalid, h.keyed.dispatch c.now region⟩

/-- No event of a run of well-formed heartbeats panics, and each keeps the
invariant. -/
theorem Valid.step (h : c.Valid) {e : ClusterEvent} (hw : e.WellFormed) (simulating : Bool) :
    ∃ c', c.step simulating e = some c' ∧ c'.Valid := by
  cases e with
  | regionHeartbeat w r region =>
    simp only [RaftCluster.step]
    split
    · exact ⟨c, rfl, h⟩
    · obtain ⟨c', err, hres, hvalid⟩ := h.handleRegionHeartbeat hw simulating w r
      exact ⟨c', by rw [hres]; rfl, hvalid⟩
  | addOperator ops => exact ⟨_, rfl, h.cachedCluster, h.keyed.addOperator _ ops⟩
  | checkOperators => exact ⟨_, rfl, h.cachedCluster, h.keyed.checkOperators _ _⟩
  | tick d => exact ⟨_, rfl, h.cachedCluster, h.keyed⟩

theorem Valid.run (h : c.Valid) (simulating : Bool) (events : List ClusterEvent) (hw : ∀ e ∈ events, e.WellFormed) :
    ∃ c', c.run simulating events = some c' ∧ c'.Valid := by
  induction events generalizing c with
  | nil => exact ⟨c, rfl, h⟩
  | cons e rest ih =>
    obtain ⟨c', hstep, hvalid⟩ := h.step (hw e List.mem_cons_self) simulating
    rw [run_cons hstep]
    exact ih hvalid fun e he => hw e (List.mem_cons_of_mem _ he)

/-- From a new cluster, a run of heartbeats of well-formed regions, operator
additions, `checkOperators` and ticks never panics and keeps the cache
consistent and every operator under its region. -/
theorem valid_run (kv : Option RegionKV) (now : Int) (simulating : Bool) (events : List ClusterEvent)
    (hw : ∀ e ∈ events, e.WellFormed) :
    ∃ c, (newRaftCluster kv now).run simulating events = some c ∧ c.Valid :=
  (valid_newRaftCluster kv now).run simulating events hw

/-! ## The two halves of a merge -/

/-- An event at the state `c` that leaves the merge of `source` into `target`
alone until `deadline`: a heartbeat of the target keeps its range, no
operator added for either region has a high priority, `checkOperators` runs
while both regions are cached, and the clock stays before the deadline. -/
def quiet (deadline : Int) (source target : Region) (c : RaftCluster) : ClusterEvent → Bool
  | .regionHeartbeat _ _ region =>
    region.getID != target.id ||
      (region.regionMeta.startKey == target.startKey && region.regionMeta.endKey == target.endKey)
  | .addOperator ops =>
    ops.all fun op => (op.regionID != source.id && op.regionID != target.id) || op.level != .highPriority
  | .checkOperators =>
    (c.cachedCluster.regions.getRegion source.id).isSome && (c.cachedCluster.regions.getRegion target.id).isSome
  | .tick d => decide (c.now + d ≤ deadline)

/-- Every event of the run is quiet at the state it happens in. -/
def runQuiet (simulating : Bool) (deadline : Int) (source target : Region) : RaftCluster → List ClusterEvent → Bool
  | _, [] => true
  | c, e :: rest =>
    c.quiet deadline source target e && match c.step simulating e with
      | some c' => runQuiet simulating deadline source target c' rest
      | none => true

section MergePair

variable {op₁ op₂ : Operator} {source target : Region} {createTime : Int}

/-- The source's operator is the active half `op₁`, moved at most to the
merge, and the target's is the passive half `op₂`; every operator is under
its region. -/
structure HoldsPair (op₁ op₂ : Operator) (oc : OperatorController) : Prop where
  active : ∃ k < op₁.steps.length, oc.getOperator op₁.regionID = some { op₁ with currentStep := k }
  passive : oc.getOperator op₂.regionID = some op₂
  keyed : oc.Keyed

/-- `AddOperator` of the two halves, for two regions, with the target cached
with the range the merge was made for, holds the pair. -/
theorem holdsPair_addOperator (hpair : MergePair op₁ op₂ source target createTime) (hne : source.id ≠ target.id)
    {oc : OperatorController} (hk : oc.Keyed) {getRegion : UInt64 → Option RegionInfo} {cached : RegionInfo}
    (htarget : getRegion target.id = some cached) (hstart : cached.regionMeta.startKey = target.startKey)
    (hend : cached.regionMeta.endKey = target.endKey) (hadd : (oc.addOperator getRegion [op₁, op₂]).2 = true) :
    HoldsPair op₁ op₂ (oc.addOperator getRegion [op₁, op₂]).1 := by
  have hnodup : ([op₁, op₂].map (·.regionID)).Nodup := by
    simp [hpair.regionID_active, hpair.regionID_passive, hne]
  -- the active half is checked against its cached region, and stops at the merge at the latest
  obtain ⟨region, hregion⟩ := OperatorController.getRegion_of_checkAddOperator
    (OperatorController.checkAddOperator_of_addOperator getRegion hadd List.mem_cons_self)
  obtain ⟨steps, hsteps⟩ := hpair.steps_active
  have hcur : op₁.currentStep < op₁.steps.length := by
    rw [hpair.currentStep_active, hsteps]
    simp
  obtain ⟨-, hlt⟩ := check_active_merge hsteps hcur region
  refine ⟨⟨_, hlt, ?_⟩, ?_, hk.addOperator getRegion _⟩
  · rw [OperatorController.getOperator_addOperator_mem getRegion hnodup hadd List.mem_cons_self hregion]
    rfl
  · -- the passive half is checked against the cached target and has not finished
    have hregion₂ : getRegion op₂.regionID = some cached := by rw [hpair.regionID_passive]; exact htarget
    rw [OperatorController.getOperator_addOperator_mem getRegion hnodup hadd (by simp) hregion₂,
      check_passive_merge hpair.steps_passive hpair.currentStep_passive hstart hend]

/-- A heartbeat before the deadline keeps the pair, unless it is the
target's with another range. -/
theorem HoldsPair.dispatch (hpair : MergePair op₁ op₂ source target createTime) {oc : OperatorController}
    (h : HoldsPair op₁ op₂ oc) {now : Int} (hnow : now ≤ createTime + leaderOperatorWaitTime)
    {region : RegionInfo}
    (hrange : region.getID = target.id →
      region.regionMeta.startKey = target.startKey ∧ region.regionMeta.endKey = target.endKey) :
    HoldsPair op₁ op₂ (oc.dispatch now region).1 := by
  obtain ⟨⟨k, hk, hactive⟩, hpassive, hkeyed⟩ := h
  refine ⟨?_, ?_, hkeyed.dispatch now region⟩
  · by_cases hid : op₁.regionID = region.getID
    · -- a heartbeat of the source: `Check` stops at the merge at the latest
      obtain ⟨steps, hsteps⟩ := hpair.steps_active
      obtain ⟨hsome, hlt⟩ := @check_active_merge { op₁ with currentStep := k } steps _ _ hsteps hk region
      have htimeout : ({ op₁ with currentStep := k } : Operator).isTimeout now = false :=
        Operator.isTimeout_of_le (hpair.createTime_active ▸ hnow)
      rw [hid] at hactive ⊢
      rw [OperatorController.getOperator_dispatch_of_step hactive hsome htimeout]
      exact ⟨_, hlt, rfl⟩
    · rw [OperatorController.getOperator_dispatch_ne hkeyed now region hid]
      exact ⟨k, hk, hactive⟩
  · by_cases hid : op₂.regionID = region.getID
    · -- a heartbeat of the target with the merge's range: the passive half has not finished
      obtain ⟨hstart, hend⟩ := hrange (hid.symm.trans hpair.regionID_passive)
      have hcheck := check_passive_merge hpair.steps_passive hpair.currentStep_passive hstart hend
      rw [hid] at hpassive ⊢
      rw [OperatorController.getOperator_dispatch_of_step hpassive (by rw [hcheck]; rfl)
        (Operator.isTimeout_of_le (hpair.createTime_passive ▸ hnow)), hcheck]
    · rw [OperatorController.getOperator_dispatch_ne hkeyed now region hid]
      exact hpassive

/-- An `AddOperator` with no operator of high priority for either region
keeps the pair: a batch with an operator for one of them is rejected. -/
theorem HoldsPair.addOperator (hpair : MergePair op₁ op₂ source target createTime) {oc : OperatorController}
    (h : HoldsPair op₁ op₂ oc) (getRegion : UInt64 → Option RegionInfo) {ops : List Operator}
    (hops : ∀ op ∈ ops, op.regionID = source.id ∨ op.regionID = target.id → op.level ≠ .highPriority) :
    HoldsPair op₁ op₂ (oc.addOperator getRegion ops).1 := by
  by_cases hmem : ∃ op ∈ ops, op.regionID = source.id ∨ op.regionID = target.id
  · obtain ⟨op, hop, hid⟩ := hmem
    have hlevel := hops op hop hid
    -- the half already there has normal priority, so `op` does not replace it
    have hrefused : oc.checkAddOperator getRegion op = false := by
      obtain ⟨⟨k, -, hactive⟩, hpassive, -⟩ := h
      rcases hid with hid | hid
      · have hold : oc.getOperator op.regionID = some { op₁ with currentStep := k } := by
          rw [hid, ← hpair.regionID_active]
          exact hactive
        exact OperatorController.checkAddOperator_of_getOperator getRegion hold
          (isHigherPriorityOperator_of_normal hlevel hpair.level_active)
      · have hold : oc.getOperator op.regionID = some op₂ := by
          rw [hid, ← hpair.regionID_passive]
          exact hpassive
        exact OperatorController.checkAddOperator_of_getOperator getRegion hold
          (isHigherPriorityOperator_of_normal hlevel hpair.level_passive)
    rw [OperatorController.addOperator_of_rejected getRegion
      (OperatorController.addOperator_rejected_of_mem getRegion hop hrefused)]
    exact h
  · push Not at hmem
    refine ⟨?_, ?_, h.keyed.addOperator getRegion ops⟩
    · rw [OperatorController.getOperator_addOperator_ne getRegion fun op hop => by
        rw [hpair.regionID_active]; exact (hmem op hop).1]
      exact h.active
    · rw [OperatorController.getOperator_addOperator_ne getRegion fun op hop => by
        rw [hpair.regionID_passive]; exact (hmem op hop).2]
      exact h.passive

/-- `checkOperators` before the deadline, with both regions cached, keeps the
pair. -/
theorem HoldsPair.checkOperators (hpair : MergePair op₁ op₂ source target createTime) {oc : OperatorController}
    (h : HoldsPair op₁ op₂ oc) {getRegion : UInt64 → Option RegionInfo} {now : Int}
    (hnow : now ≤ createTime + leaderOperatorWaitTime) (hsource : (getRegion source.id).isSome = true)
    (htarget : (getRegion target.id).isSome = true) :
    HoldsPair op₁ op₂ (oc.checkOperators getRegion now) := by
  obtain ⟨⟨k, hk, hactive⟩, hpassive, hkeyed⟩ := h
  refine ⟨⟨k, hk, ?_⟩, ?_, hkeyed.checkOperators getRegion now⟩
  · exact OperatorController.getOperator_checkOperators_of_live hkeyed hactive
      (by rw [show ({ op₁ with currentStep := k } : Operator).regionID = source.id from hpair.regionID_active]
          exact hsource)
      (Operator.isTimeout_of_le (hpair.createTime_active ▸ hnow))
  · exact OperatorController.getOperator_checkOperators_of_live hkeyed hpassive
      (by rw [hpair.regionID_passive]; exact htarget) (Operator.isTimeout_of_le (hpair.createTime_passive ▸ hnow))

/-- A quiet event keeps the pair, and the clock before the deadline. -/
theorem HoldsPair.step (hpair : MergePair op₁ op₂ source target createTime) {c c' : RaftCluster}
    (h : HoldsPair op₁ op₂ c.opController) (hnow : c.now ≤ createTime + leaderOperatorWaitTime)
    {simulating : Bool} {e : ClusterEvent} (hq : c.quiet (createTime + leaderOperatorWaitTime) source target e = true)
    (hs : c.step simulating e = some c') :
    HoldsPair op₁ op₂ c'.opController ∧ c'.now ≤ createTime + leaderOperatorWaitTime := by
  cases e with
  | regionHeartbeat w r region =>
    rcases step_regionHeartbeat hs with rfl | ⟨err, hres⟩
    · exact ⟨h, hnow⟩
    obtain ⟨hnow', hoc | hoc⟩ := handleRegionHeartbeat_opController hres
    · rw [hoc, hnow']
      exact ⟨h, hnow⟩
    · rw [hoc, hnow']
      refine ⟨h.dispatch hpair hnow fun hid => ?_, hnow⟩
      simpa [quiet, hid] using hq
  | addOperator ops =>
    obtain rfl := Option.some.inj hs
    refine ⟨h.addOperator hpair _ fun op hop hid => ?_, hnow⟩
    have := List.all_eq_true.mp hq op hop
    rcases hid with hid | hid <;> simpa [hid] using this
  | checkOperators =>
    obtain rfl := Option.some.inj hs
    simp only [quiet, Bool.and_eq_true] at hq
    exact ⟨h.checkOperators hpair hnow hq.1 hq.2, hnow⟩
  | tick d =>
    obtain rfl := Option.some.inj hs
    exact ⟨h, by simpa [quiet] using hq⟩

/-- A quiet run keeps the pair. -/
theorem HoldsPair.run (hpair : MergePair op₁ op₂ source target createTime) (simulating : Bool)
    (events : List ClusterEvent) {c st : RaftCluster} (h : HoldsPair op₁ op₂ c.opController)
    (hnow : c.now ≤ createTime + leaderOperatorWaitTime)
    (hq : runQuiet simulating (createTime + leaderOperatorWaitTime) source target c events = true)
    (hrun : c.run simulating events = some st) : HoldsPair op₁ op₂ st.opController := by
  induction events generalizing c with
  | nil =>
    obtain rfl := Option.some.inj hrun
    exact h
  | cons e rest ih =>
    simp only [runQuiet, Bool.and_eq_true] at hq
    cases hs : c.step simulating e with
    | none => simp [RaftCluster.run, hs] at hrun
    | some c' =>
      rw [hs] at hq
      obtain ⟨h', hnow'⟩ := h.step hpair hnow hq.1 hs
      exact ih h' hnow' hq.2 (by rwa [run_cons hs] at hrun)

end MergePair

/-- After `AddOperator` takes the two halves of a merge of a cached source
into a cached target, both stay in the controller along every run that is
quiet for them until `LeaderOperatorWaitTime` after their creation. -/
theorem merge_pair_held (simulating : Bool) (c : RaftCluster) (hkeyed : c.opController.Keyed) (desc : String)
    (cluster : Cluster) (source target : RegionInfo) (kind : OperatorKind) (op₁ op₂ : Operator)
    (hcreate : createMergeRegionOperator desc cluster source target kind c.now = some [op₁, op₂])
    (htarget : c.cachedCluster.regions.getRegion target.getID = some target) (hne : source.getID ≠ target.getID)
    (hadd : (c.addOperator [op₁, op₂]).2 = true) (events : List ClusterEvent)
    (hquiet : runQuiet simulating (c.now + leaderOperatorWaitTime) source.regionMeta target.regionMeta
      (c.addOperator [op₁, op₂]).1 events = true)
    (st : RaftCluster) (hrun : (c.addOperator [op₁, op₂]).1.run simulating events = some st) :
    (∃ k < op₁.steps.length, st.opController.getOperator source.getID = some { op₁ with currentStep := k }) ∧
      st.opController.getOperator target.getID = some op₂ := by
  have hpair := mergePair_createMergeRegionOperator hcreate
  have hstart : HoldsPair op₁ op₂ (c.addOperator [op₁, op₂]).1.opController :=
    holdsPair_addOperator hpair hne hkeyed htarget rfl rfl hadd
  have hnow : (c.addOperator [op₁, op₂]).1.now ≤ c.now + leaderOperatorWaitTime :=
    le_add_of_nonneg_right (by decide)
  obtain ⟨⟨k, hk, hactive⟩, hpassive, -⟩ := hstart.run hpair simulating events hnow hquiet hrun
  refine ⟨⟨k, hk, ?_⟩, ?_⟩
  · rw [show source.getID = op₁.regionID from hpair.regionID_active.symm]
    exact hactive
  · rw [show target.getID = op₂.regionID from hpair.regionID_passive.symm]
    exact hpassive

/-! ## A merge whose passive half times out alone -/

/-- A region of id 1 over `[[1], [2])`, with its one peer and its leader on
store 1. -/
def mergeSource : RegionInfo := ⟨⟨1, [1], [2], ⟨1, 1⟩, [⟨1, 1, false⟩]⟩, some ⟨1, 1, false⟩, [], [], 0, 0, 0, 0⟩

/-- Its right neighbour, region 2 over `[[2], [3])`, on store 2. -/
def mergeTarget : RegionInfo := ⟨⟨2, [2], [3], ⟨1, 1⟩, [⟨2, 2, false⟩]⟩, some ⟨2, 2, false⟩, [], [], 0, 0, 0, 0⟩

theorem wellFormed_mergeSource : mergeSource.WellFormed :=
  ⟨.inl (by decide), by decide, by decide, ⟨⟨1, 1, false⟩, rfl, by decide⟩, fun _ hp => absurd hp List.not_mem_nil⟩

theorem wellFormed_mergeTarget : mergeTarget.WellFormed :=
  ⟨.inl (by decide), by decide, by decide, ⟨⟨2, 2, false⟩, rfl, by decide⟩, fun _ hp => absurd hp List.not_mem_nil⟩

/-- The region cache, and the overlaps, after `mergeSource`. -/
def cacheWithSource : RegionsInfo × List Region := (newRegionsInfo.setRegion mergeSource).get (by decide)

/-- The region cache, and the overlaps, after `mergeSource` then `mergeTarget`. -/
def cacheWithPair : RegionsInfo × List Region := (cacheWithSource.1.setRegion mergeTarget).get (by decide)

theorem setRegion_mergeSource : newRegionsInfo.setRegion mergeSource = some cacheWithSource :=
  (Option.some_get _).symm

theorem setRegion_mergeTarget : cacheWithSource.1.setRegion mergeTarget = some cacheWithPair :=
  (Option.some_get _).symm

/-- The cluster the merge checker sees: new peers get id 3, and there are no
learners. -/
def mergeCluster : Cluster :=
  Cluster.ofRegions defaultScheduleOption 0 [] cacheWithPair.1 (fun _ _ => 0) (fun storeId => some ⟨3, storeId, false⟩)
    false (fun _ => false)

/-- The active half: a peer on store 2, the leader moved there, the peer on
store 1 removed, then the merge. It moves peers, so it waits ten minutes. -/
def mergeActive : Operator :=
  newOperator "merge-region" 1 ⟨1, 1⟩ (opRegion ||| opLeader ||| opMerge)
    [.addPeer 2 3, .transferLeader 1 2, .removePeer 1, .mergeRegion mergeSource.regionMeta mergeTarget.regionMeta false] 0

/-- The passive half, of kind `OpMerge` alone: it waits ten seconds. -/
def mergePassive : Operator :=
  newOperator "merge-region" 2 ⟨1, 1⟩ opMerge [.mergeRegion mergeSource.regionMeta mergeTarget.regionMeta true] 0

/-- The two heartbeats, the merge added at time 0, eleven seconds, then
`checkOperators`. -/
def splitEvents : List ClusterEvent :=
  [.regionHeartbeat 0 0 mergeSource, .regionHeartbeat 0 0 mergeTarget, .addOperator [mergeActive, mergePassive],
    .tick 11000000000, .checkOperators]

/-- The merge checker's pair for `mergeSource` and `mergeTarget`, added when
both are cached: eleven seconds later `checkOperators` has removed the passive
half, while the source still holds the active half and is still cached. -/
theorem merge_pair_split_by_timeout :
    createMergeRegionOperator "merge-region" mergeCluster mergeSource mergeTarget opMerge 0 =
        some [mergeActive, mergePassive] ∧
      ∃ st, (newRaftCluster (some ∅) 0).run false splitEvents = some st ∧
        st.opController.getOperator mergeSource.getID = some mergeActive ∧
        (st.cachedCluster.regions.getRegion mergeSource.getID).isSome ∧
        st.opController.getOperator mergeTarget.getID = none := by
  refine ⟨by decide, ?_⟩
  -- the two heartbeats fill the cache; the controller is still empty
  obtain ⟨c₁, hsave₁, hvalid₁, hregions₁, -⟩ :=
    (ClusterInfo.valid_newClusterInfo (some ∅)).handleRegionHeartbeat_saveCache wellFormed_mergeSource
      (heartbeatFlags_none mergeSource) setRegion_mergeSource false ⟨0, 0, 0⟩
  have hnone : c₁.regions.getRegion mergeTarget.getID = none := by
    rw [hregions₁]
    decide
  obtain ⟨c₂, hsave₂, -, hregions₂, -⟩ :=
    hvalid₁.handleRegionHeartbeat_saveCache wellFormed_mergeTarget (hnone ▸ heartbeatFlags_none mergeTarget)
      (by rw [hregions₁]; exact setRegion_mergeTarget) false ⟨0, 0, 0⟩
  -- `Dispatch` finds no operator for either region
  have hstep₁ : (newRaftCluster (some ∅) 0).step false (.regionHeartbeat 0 0 mergeSource) =
      some ⟨c₁, .newOperatorController, 0⟩ := by
    rw [step_regionHeartbeat_of_accepted (by decide) rfl (by decide) hsave₁]
    rfl
  have hstep₂ : RaftCluster.step ⟨c₁, .newOperatorController, 0⟩ false (.regionHeartbeat 0 0 mergeTarget) =
      some ⟨c₂, .newOperatorController, 0⟩ := by
    rw [step_regionHeartbeat_of_accepted (by decide) rfl (by decide) hsave₂]
    rfl
  unfold splitEvents
  rw [run_cons hstep₁, run_cons hstep₂]
  rw [run_cons rfl, run_cons rfl, run_cons rfl, run_nil]
  refine ⟨_, rfl, ?_, ?_, ?_⟩ <;>
    simp only [RaftCluster.addOperator, RaftCluster.checkOperators, hregions₂] <;> decide

/-- The state where the merge is made: both regions cached, no operator. -/
def mergeReady : RaftCluster := ⟨⟨cacheWithPair.1, HotSpotCache.newHotSpotCache, some ∅⟩, .newOperatorController, 0⟩

/-- Nine seconds with two `checkOperators` runs. -/
def quietEvents : List ClusterEvent := [.tick 4000000000, .checkOperators, .tick 5000000000, .checkOperators]

example :
    ∃ st, (mergeReady.addOperator [mergeActive, mergePassive]).1.run false quietEvents = some st ∧
      (∃ k < mergeActive.steps.length,
        st.opController.getOperator mergeSource.getID = some { mergeActive with currentStep := k }) ∧
      st.opController.getOperator mergeTarget.getID = some mergePassive := by
  obtain ⟨st, hrun⟩ : ∃ st, (mergeReady.addOperator [mergeActive, mergePassive]).1.run false quietEvents = some st :=
    ⟨_, rfl⟩
  exact ⟨st, hrun, merge_pair_held false mergeReady OperatorController.keyed_newOperatorController "merge-region"
    mergeCluster mergeSource mergeTarget opMerge mergeActive mergePassive (by decide) (by decide) (by decide)
    (by decide) quietEvents (by decide) st hrun⟩

end RaftCluster

end Server

end PlacementDriver
