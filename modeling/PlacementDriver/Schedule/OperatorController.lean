import PlacementDriver.Schedule.Operator

/-!
# The operator controller

`OperatorController` (in `server/schedule/operator_controller.go`) keeps at
most one running operator per region. `AddOperator` adds a batch of
operators all or none: each needs its region cached with the operator's
epoch, and an operator already running for the region may only be replaced
by one of higher priority. `Dispatch` checks the operator of the region a
heartbeat came from: it sends the next step, or removes the operator once it
has finished or timed out. `RaftCluster.checkOperators` removes the operators
whose region left the cache and those that timed out.

Every operation here reads or writes the operator of one region at a time, so
the operators of other regions are left alone (`getOperator_dispatch_ne`,
`getOperator_addOperator_ne`, `getOperator_checkOperators`). Nothing ties the
two operators of a merge together once they are added.

The counts, the history of finished operators and the messages to the stores
are not modelled. `Dispatch` returns the step it sends.
-/

namespace PlacementDriver

namespace Schedule

/-- `OperatorController`: the operator of each region, by region id. -/
structure OperatorController where
  operators : AList (fun _ : UInt64 => Operator)

namespace OperatorController

/-- `NewOperatorController`. -/
def newOperatorController : OperatorController := ⟨∅⟩

variable (oc : OperatorController)

/-- `GetOperator(regionID)`. -/
def getOperator (regionID : UInt64) : Option Operator := oc.operators.lookup regionID

/-- `RemoveOperator(op)`: the operator of `op`'s region goes. -/
def removeOperator (op : Operator) : OperatorController := ⟨oc.operators.erase op.regionID⟩

/-- `checkAddOperator(op)`, against the region cache `getRegion`. -/
def checkAddOperator (getRegion : UInt64 → Option RegionInfo) (op : Operator) : Bool :=
  match getRegion op.regionID with
  | none => false
  | some region =>
    region.getRegionEpoch.version == op.regionEpoch.version &&
      region.getRegionEpoch.confVer == op.regionEpoch.confVer &&
      match oc.getOperator op.regionID with
      | some old => isHigherPriorityOperator op old
      | none => true

/-- `addOperatorLocked(op)`: the operator replaces the region's, and is
checked against the cached region at once (which may move `currentStep`). -/
def addOperatorLocked (getRegion : UInt64 → Option RegionInfo) (op : Operator) : OperatorController :=
  let op := match getRegion op.regionID with
    | some region => (op.check region).1
    | none => op
  ⟨oc.operators.insert op.regionID op⟩

/-- `AddOperator(ops...)`: every operator passes `checkAddOperator` against the
controller as it was, or none is added. -/
def addOperator (getRegion : UInt64 → Option RegionInfo) (ops : List Operator) : OperatorController × Bool :=
  if ops.all (oc.checkAddOperator getRegion) then (ops.foldl (addOperatorLocked · getRegion) oc, true)
  else (oc, false)

/-- `Dispatch(region)` at the time `now`. -/
def dispatch (now : Int) (region : RegionInfo) : OperatorController × Option OperatorStep :=
  match oc.getOperator region.getID with
  | none => (oc, none)
  | some op =>
    let timeout := op.isTimeout now
    -- `Check` moves the `currentStep` of the stored operator
    let r := op.check region
    let oc : OperatorController := ⟨oc.operators.insert region.getID r.1⟩
    if r.2.isSome && !timeout then (oc, r.2)
    else if r.1.isFinish then (oc.removeOperator r.1, none)
    else if timeout then (oc.removeOperator r.1, none)
    else (oc, none)

/-- `GetOperators()`: the running operators. -/
def getOperators : List Operator := oc.operators.entries.map (·.2)

/-- The body of the loop of `RaftCluster.checkOperators` for one operator. -/
def checkOperator (getRegion : UInt64 → Option RegionInfo) (now : Int) (op : Operator) : OperatorController :=
  -- after a region is merged it sends no heartbeat, and its operator would not time out
  if (getRegion op.regionID).isNone then oc.removeOperator op
  else if op.isTimeout now then oc.removeOperator op
  else oc

/-- `RaftCluster.checkOperators` at the time `now`, against the region cache
`getRegion`, over the operators `GetOperators` returned. -/
def checkOperators (getRegion : UInt64 → Option RegionInfo) (now : Int) : OperatorController :=
  oc.getOperators.foldl (checkOperator · getRegion now) oc

/-- Each operator is stored under the id of its region, as `operators[regionID] = op`
does it. -/
def Keyed : Prop := ∀ id op, oc.getOperator id = some op → op.regionID = id

/-! ## Reading one region's operator -/

variable {oc}

theorem getOperator_removeOperator (op : Operator) (regionID : UInt64) :
    (oc.removeOperator op).getOperator regionID =
      if regionID = op.regionID then none else oc.getOperator regionID := by
  unfold getOperator removeOperator
  split_ifs with h
  · rw [h, AList.lookup_erase]
  · exact AList.lookup_erase_ne h

theorem getOperator_insert (regionID id : UInt64) (op : Operator) :
    (⟨oc.operators.insert id op⟩ : OperatorController).getOperator regionID =
      if regionID = id then some op else oc.getOperator regionID := by
  unfold getOperator
  split_ifs with h
  · rw [h, AList.lookup_insert]
  · exact AList.lookup_insert_ne h

theorem mem_getOperators {op : Operator} (h : op ∈ oc.getOperators) : ∃ id, oc.getOperator id = some op := by
  obtain ⟨⟨id, op'⟩, hmem, rfl⟩ := List.mem_map.mp h
  exact ⟨id, AList.mem_lookup_iff.mpr hmem⟩

/-- `Check` keeps the operator's region. -/
@[simp] theorem regionID_check (op : Operator) (region : RegionInfo) : (op.check region).1.regionID = op.regionID :=
  rfl

/-- `addOperatorLocked` sets the operator's region to the operator checked
against the cached region. -/
theorem getOperator_addOperatorLocked (getRegion : UInt64 → Option RegionInfo) (op : Operator)
    (regionID : UInt64) :
    (oc.addOperatorLocked getRegion op).getOperator regionID =
      if regionID = op.regionID then
        some (match getRegion op.regionID with
          | some region => (op.check region).1
          | none => op)
      else oc.getOperator regionID := by
  unfold addOperatorLocked
  split <;> exact getOperator_insert _ _ _

theorem getOperator_foldl_addOperatorLocked_ne (getRegion : UInt64 → Option RegionInfo) {ops : List Operator}
    {regionID : UInt64} (h : ∀ op ∈ ops, op.regionID ≠ regionID) :
    (ops.foldl (addOperatorLocked · getRegion) oc).getOperator regionID = oc.getOperator regionID := by
  induction ops generalizing oc with
  | nil => rfl
  | cons op ops ih =>
    rw [List.foldl_cons, ih (fun op' hop' => h op' (List.mem_cons_of_mem _ hop')),
      getOperator_addOperatorLocked, if_neg (Ne.symm (h op List.mem_cons_self))]

/-- `AddOperator` leaves the operators of the regions it has no operator for. -/
theorem getOperator_addOperator_ne (getRegion : UInt64 → Option RegionInfo) {ops : List Operator}
    {regionID : UInt64} (h : ∀ op ∈ ops, op.regionID ≠ regionID) :
    (oc.addOperator getRegion ops).1.getOperator regionID = oc.getOperator regionID := by
  unfold addOperator
  split_ifs
  · exact getOperator_foldl_addOperatorLocked_ne getRegion h
  · rfl

theorem getOperator_foldl_addOperatorLocked_mem (getRegion : UInt64 → Option RegionInfo) {ops : List Operator}
    (hnodup : (ops.map (·.regionID)).Nodup) {op : Operator} (hop : op ∈ ops) {region : RegionInfo}
    (hregion : getRegion op.regionID = some region) :
    (ops.foldl (addOperatorLocked · getRegion) oc).getOperator op.regionID = some (op.check region).1 := by
  -- the batch is added in order, and no later operator is for `op`'s region
  induction ops generalizing oc with
  | nil => exact absurd hop List.not_mem_nil
  | cons op' ops ih =>
    obtain ⟨hnotin, hnodup⟩ := List.nodup_cons.mp hnodup
    rw [List.foldl_cons]
    rcases List.mem_cons.mp hop with rfl | hop
    · have hne : ∀ o ∈ ops, o.regionID ≠ op.regionID := fun o ho heq =>
        hnotin (List.mem_map.mpr ⟨o, ho, heq⟩)
      rw [getOperator_foldl_addOperatorLocked_ne getRegion hne, getOperator_addOperatorLocked, if_pos rfl,
        hregion]
    · exact ih hnodup hop

/-- An `AddOperator` that succeeds stores each operator of a batch for distinct
regions, checked against its cached region. -/
theorem getOperator_addOperator_mem (getRegion : UInt64 → Option RegionInfo) {ops : List Operator}
    (hnodup : (ops.map (·.regionID)).Nodup) (hadd : (oc.addOperator getRegion ops).2 = true)
    {op : Operator} (hop : op ∈ ops) {region : RegionInfo} (hregion : getRegion op.regionID = some region) :
    (oc.addOperator getRegion ops).1.getOperator op.regionID = some (op.check region).1 := by
  unfold addOperator at hadd ⊢
  split_ifs at hadd ⊢
  exact getOperator_foldl_addOperatorLocked_mem getRegion hnodup hop hregion

/-- A rejected `AddOperator` changes nothing. -/
theorem addOperator_of_rejected (getRegion : UInt64 → Option RegionInfo) {ops : List Operator}
    (h : (oc.addOperator getRegion ops).2 = false) : (oc.addOperator getRegion ops).1 = oc := by
  unfold addOperator at h ⊢
  split_ifs at h ⊢
  rfl

/-- `AddOperator` rejects a batch with an operator `checkAddOperator` refuses. -/
theorem addOperator_rejected_of_mem (getRegion : UInt64 → Option RegionInfo) {ops : List Operator}
    {op : Operator} (hop : op ∈ ops) (h : oc.checkAddOperator getRegion op = false) :
    (oc.addOperator getRegion ops).2 = false := by
  unfold addOperator
  rw [if_neg]
  simp only [List.all_eq_true, not_forall]
  exact ⟨op, hop, by simp [h]⟩

/-- Every operator of a batch `AddOperator` took passed `checkAddOperator`. -/
theorem checkAddOperator_of_addOperator (getRegion : UInt64 → Option RegionInfo) {ops : List Operator}
    (h : (oc.addOperator getRegion ops).2 = true) {op : Operator} (hop : op ∈ ops) :
    oc.checkAddOperator getRegion op = true := by
  unfold addOperator at h
  split_ifs at h with hall
  exact List.all_eq_true.mp hall op hop

/-- `checkAddOperator` only passes an operator whose region is cached. -/
theorem getRegion_of_checkAddOperator {getRegion : UInt64 → Option RegionInfo} {op : Operator}
    (h : oc.checkAddOperator getRegion op = true) : ∃ region, getRegion op.regionID = some region := by
  unfold checkAddOperator at h
  split at h
  · cases h
  · exact ⟨_, ‹_›⟩

/-- `checkAddOperator` refuses an operator for a region whose operator has
the same or a higher priority. -/
theorem checkAddOperator_of_getOperator (getRegion : UInt64 → Option RegionInfo) {op old : Operator}
    (hold : oc.getOperator op.regionID = some old) (hprio : isHigherPriorityOperator op old = false) :
    oc.checkAddOperator getRegion op = false := by
  unfold checkAddOperator
  split
  · rfl
  · simp [hold, hprio]

/-- `Dispatch` leaves the operators of other regions. -/
theorem getOperator_dispatch_ne (hk : oc.Keyed) (now : Int) (region : RegionInfo) {regionID : UInt64}
    (h : regionID ≠ region.getID) :
    (oc.dispatch now region).1.getOperator regionID = oc.getOperator regionID := by
  unfold dispatch
  cases hop : oc.getOperator region.getID with
  | none => rfl
  | some op =>
    have hreg : (op.check region).1.regionID = region.getID := hk _ op hop
    simp only
    split_ifs <;> simp only [getOperator_removeOperator, getOperator_insert, hreg, if_neg h]

/-- `Dispatch` keeps, checked against the heartbeat, an operator that has a
step to send and has not timed out. -/
theorem getOperator_dispatch_of_step {now : Int} {region : RegionInfo} {op : Operator}
    (hop : oc.getOperator region.getID = some op) (hstep : (op.check region).2.isSome = true)
    (htimeout : op.isTimeout now = false) :
    (oc.dispatch now region).1.getOperator region.getID = some (op.check region).1 := by
  unfold dispatch
  rw [hop]
  simp only [hstep, htimeout, Bool.not_false, Bool.and_self, if_true]
  exact (getOperator_insert _ _ _).trans (if_pos rfl)

/-- `Dispatch` of a region with no operator does nothing. -/
theorem dispatch_of_getOperator_none {now : Int} {region : RegionInfo} (h : oc.getOperator region.getID = none) :
    oc.dispatch now region = (oc, none) := by
  unfold dispatch
  rw [h]

theorem getOperator_checkOperator (getRegion : UInt64 → Option RegionInfo) (now : Int) (op : Operator)
    (regionID : UInt64) :
    (oc.checkOperator getRegion now op).getOperator regionID =
      if regionID = op.regionID ∧ ((getRegion op.regionID).isNone || op.isTimeout now) = true then none
      else oc.getOperator regionID := by
  unfold checkOperator
  by_cases hid : regionID = op.regionID
  · split_ifs with h₁ h₂ <;> simp_all [getOperator_removeOperator]
  · split_ifs <;> simp_all [getOperator_removeOperator]

theorem getOperator_foldl_checkOperator (getRegion : UInt64 → Option RegionInfo) (now : Int)
    (ops : List Operator) (regionID : UInt64) :
    (ops.foldl (checkOperator · getRegion now) oc).getOperator regionID =
      if ∃ op ∈ ops, regionID = op.regionID ∧ ((getRegion op.regionID).isNone || op.isTimeout now) = true then none
      else oc.getOperator regionID := by
  induction ops generalizing oc with
  | nil => simp
  | cons op ops ih =>
    rw [List.foldl_cons, ih, getOperator_checkOperator]
    by_cases hrest : ∃ o ∈ ops, regionID = o.regionID ∧ ((getRegion o.regionID).isNone || o.isTimeout now) = true
    · rw [if_pos hrest, if_pos (let ⟨o, ho, h⟩ := hrest; ⟨o, List.mem_cons_of_mem _ ho, h⟩)]
    · rw [if_neg hrest]
      by_cases hop : regionID = op.regionID ∧ ((getRegion op.regionID).isNone || op.isTimeout now) = true
      · rw [if_pos hop, if_pos ⟨op, List.mem_cons_self, hop⟩]
      · rw [if_neg hop, if_neg]
        rintro ⟨o, ho, h⟩
        rcases List.mem_cons.mp ho with rfl | ho
        · exact hop h
        · exact hrest ⟨o, ho, h⟩

/-- `checkOperators` drops an operator exactly when its region has left the
cache or it has timed out. -/
theorem getOperator_checkOperators (hk : oc.Keyed) (getRegion : UInt64 → Option RegionInfo) (now : Int)
    (regionID : UInt64) :
    (oc.checkOperators getRegion now).getOperator regionID =
      (oc.getOperator regionID).filter fun op => !((getRegion op.regionID).isNone || op.isTimeout now) := by
  unfold checkOperators
  rw [getOperator_foldl_checkOperator]
  cases hop : oc.getOperator regionID with
  | none =>
    -- an operator of `GetOperators` for the region would be its operator
    rw [if_neg]
    · rfl
    rintro ⟨o, ho, hid, -⟩
    obtain ⟨id, hid'⟩ := mem_getOperators ho
    have : oc.getOperator regionID = some o := by
      rw [hid.trans (hk id o hid')]
      exact hid'
    rw [hop] at this
    cases this
  | some op =>
    have hmem : op ∈ oc.getOperators := List.mem_map.mpr ⟨⟨regionID, op⟩, AList.mem_lookup_iff.mp hop, rfl⟩
    have hid : op.regionID = regionID := hk regionID op hop
    -- the operators of `GetOperators` for the region are this one
    have huniq : ∀ o ∈ oc.getOperators, regionID = o.regionID → o = op := fun o ho ho' => by
      obtain ⟨id, hid'⟩ := mem_getOperators ho
      rw [← hk id o hid', ← ho'] at hid'
      exact Option.some.inj (hid'.symm.trans hop)
    rw [Option.filter_some]
    by_cases hbad : ((getRegion op.regionID).isNone || op.isTimeout now) = true
    · rw [if_pos ⟨op, hmem, hid.symm, hbad⟩, hbad]
      rfl
    · rw [if_neg fun ⟨o, ho, ho', hb⟩ => hbad (huniq o ho ho' ▸ hb), Bool.eq_false_iff.mpr hbad]
      rfl

/-- `checkOperators` keeps an operator whose region is cached and which has
not timed out. -/
theorem getOperator_checkOperators_of_live (hk : oc.Keyed) {getRegion : UInt64 → Option RegionInfo} {now : Int}
    {regionID : UInt64} {op : Operator} (hop : oc.getOperator regionID = some op)
    (hcached : (getRegion op.regionID).isSome = true) (htimeout : op.isTimeout now = false) :
    (oc.checkOperators getRegion now).getOperator regionID = some op := by
  rw [getOperator_checkOperators hk, hop, Option.filter_some, if_pos]
  cases hregion : getRegion op.regionID with
  | none => rw [hregion] at hcached; cases hcached
  | some region => simp [htimeout]

/-! ## Every operator is stored under its region -/

theorem keyed_newOperatorController : newOperatorController.Keyed := fun _ _ h => by
  simp [getOperator, newOperatorController] at h

theorem Keyed.removeOperator (hk : oc.Keyed) (op : Operator) : (oc.removeOperator op).Keyed := by
  intro id o h
  rw [getOperator_removeOperator] at h
  split_ifs at h
  exact hk id o h

theorem Keyed.insert (hk : oc.Keyed) {id : UInt64} {op : Operator} (hop : op.regionID = id) :
    (⟨oc.operators.insert id op⟩ : OperatorController).Keyed := by
  intro id' o h
  rw [getOperator_insert] at h
  split_ifs at h with hid
  · cases h
    exact hop.trans hid.symm
  · exact hk id' o h

theorem Keyed.addOperatorLocked (hk : oc.Keyed) (getRegion : UInt64 → Option RegionInfo) (op : Operator) :
    (oc.addOperatorLocked getRegion op).Keyed := by
  unfold OperatorController.addOperatorLocked
  split <;> exact hk.insert rfl

theorem Keyed.foldl_addOperatorLocked (hk : oc.Keyed) (getRegion : UInt64 → Option RegionInfo)
    (ops : List Operator) : (ops.foldl (OperatorController.addOperatorLocked · getRegion) oc).Keyed := by
  induction ops generalizing oc with
  | nil => exact hk
  | cons op ops ih => exact ih (hk.addOperatorLocked getRegion op)

theorem Keyed.addOperator (hk : oc.Keyed) (getRegion : UInt64 → Option RegionInfo) (ops : List Operator) :
    (oc.addOperator getRegion ops).1.Keyed := by
  unfold OperatorController.addOperator
  split_ifs
  · exact hk.foldl_addOperatorLocked getRegion ops
  · exact hk

theorem Keyed.dispatch (hk : oc.Keyed) (now : Int) (region : RegionInfo) : (oc.dispatch now region).1.Keyed := by
  unfold OperatorController.dispatch
  cases hop : oc.getOperator region.getID with
  | none => exact hk
  | some op =>
    have hins : (⟨oc.operators.insert region.getID (op.check region).1⟩ : OperatorController).Keyed :=
      hk.insert (hk _ op hop)
    simp only
    split_ifs
    · exact hins
    · exact hins.removeOperator _
    · exact hins.removeOperator _
    · exact hins

theorem Keyed.checkOperator (hk : oc.Keyed) (getRegion : UInt64 → Option RegionInfo) (now : Int) (op : Operator) :
    (oc.checkOperator getRegion now op).Keyed := by
  unfold OperatorController.checkOperator
  split_ifs
  · exact hk.removeOperator op
  · exact hk.removeOperator op
  · exact hk

theorem Keyed.checkOperators (hk : oc.Keyed) (getRegion : UInt64 → Option RegionInfo) (now : Int) :
    (oc.checkOperators getRegion now).Keyed := by
  unfold OperatorController.checkOperators
  -- each step of the loop removes an operator or does nothing
  suffices ∀ (ops : List Operator) (acc : OperatorController), acc.Keyed →
      (ops.foldl (OperatorController.checkOperator · getRegion now) acc).Keyed from this _ oc hk
  intro ops
  induction ops with
  | nil => exact fun _ h => h
  | cons op ops ih => exact fun acc hacc => ih _ (hacc.checkOperator getRegion now op)

end OperatorController

end Schedule

end PlacementDriver
