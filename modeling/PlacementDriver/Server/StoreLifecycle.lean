import PlacementDriver.Schedule.Cluster
import PlacementDriver.Core.RegionsInfo
import PlacementDriver.Server.Version

/-!
# The life of a store: `PutStore`, heartbeats, `RemoveStore`, `BuryStore`, `checkStores`

`RaftCluster` and `clusterInfo` (in `server/cluster.go`, `server/cluster_info.go`
and `server/grpc_service.go`) keep the stores of the cluster, each `Up`,
`Offline` or `Tombstone`, and the cluster version. Every call reads a copy of
a store, changes some fields and writes it back with `putStore`, which saves it
to the KV store first: a failed save, like any failed check, leaves the cluster
as it was. `putStore` of a known store takes its address, version and labels
but keeps its state; `RemoveStore` makes an `Up` store `Offline`; `BuryStore`
makes an `Offline` store, or with `force` an `Up` one, a `Tombstone`;
`checkStores` buries the stores that are not `Up` and hold no region. After a
`PutStore`, `OnStoreVersionChange` raises the cluster version to the least
version it finds, by `LessThan`, going once over the stores that are not
tombstones in the map's order.

The outcome of each KV save is part of the event. `StoreEvent` lists the calls
other than the administrative `SetStoreState` and `SetStoreWeight`.

## Main results

* `Move`: the moves of a store's state, and `step_move`: every event moves
  each store along one of them.
* `store_state_absorbing`: a tombstone stays a tombstone, an offline store
  never comes back up, and a store becomes a tombstone without force only from
  `Offline`.
* `VersionSafe.step`: every event keeps the `(Major, Minor)` of every store
  that is not a tombstone at least the cluster version's.
* `cluster_version_safe`: over every run with go-semver, the cluster version
  never goes down, is raised only to a store version least in
  `(Major, Minor, Patch)`, and keeps older stores out.
* `cluster_version_raised_above_store`: go-semver's order of pre-release tags
  goes round in a circle, and `OnStoreVersionChange` can raise the cluster
  version above the version of a store.
-/

namespace PlacementDriver.Server

open Metapb

/-- The errors of the store calls. -/
inductive StoreError
  /-- `"invalid zero store id"` -/
  | invalidZeroStoreID
  /-- `"invalid store ID %d, not found"` -/
  | invalidStoreID (storeID : UInt64)
  /-- `"invalid put store %v"`, for store id 0 -/
  | invalidPutStore
  /-- `"invalid put store %v, error: %s"`, for a version `ParseVersion` rejects -/
  | invalidVersion
  /-- `"version should compatible with version  %s, got %s"` -/
  | incompatibleVersion (clusterVersion v : Version)
  /-- `"duplicated store address: %v, already registered by %v"` -/
  | duplicatedAddress (other : UInt64)
  /-- `core.NewStoreNotFoundErr(storeID)` -/
  | storeNotFound (storeID : UInt64)
  /-- `core.StoreTombstonedErr{StoreID: storeID}` -/
  | storeTombstoned (storeID : UInt64)
  /-- `"store is still up, please remove store gracefully"` -/
  | storeIsUp
  /-- the error of `kv.SaveStore` -/
  | saveFailed
deriving DecidableEq, Repr

/-- What `PutStore` and `StoreHeartbeat` answer. -/
inductive StoreResponse
  /-- a header with `ErrorType_STORE_TOMBSTONE`, `"store is tombstone"` -/
  | storeTombstone
  /-- `status.Errorf(codes.Unknown, err.Error())` -/
  | unknown (err : StoreError)
  /-- a header with no error -/
  | ok
deriving DecidableEq, Repr

/-- The part of `RaftCluster` the store calls read and write: the stores of
`cachedCluster` by id, and `opt.clusterVersion`. -/
structure StoreCluster where
  stores : AList (fun _ : UInt64 => StoreInfo)
  clusterVersion : Version

namespace StoreCluster

variable (c : StoreCluster)

/-- `clusterInfo.GetStore(storeID)`: a copy of the store. -/
def getStore (storeID : UInt64) : Option StoreInfo := c.stores.lookup storeID

/-- `clusterInfo.GetStores()`, in the map's iteration order. -/
def getStores : List StoreInfo := c.stores.entries.map (·.2)

/-- `Stores.SetStore(store)`. -/
def setStore (store : StoreInfo) : StoreCluster := { c with stores := c.stores.insert store.getId store }

/-- `clusterInfo.putStore(store)`: `kv.SaveStore`, which succeeds when `saved`,
then `SetStore`. -/
def putStoreLocked (store : StoreInfo) (saved : Bool) : Except StoreError StoreCluster :=
  if saved then .ok (c.setStore store) else .error .saveFailed

/-- `RaftCluster.GetStore(storeID)`. -/
def raftGetStore (storeID : UInt64) : Except StoreError StoreInfo :=
  if storeID = 0 then .error .invalidZeroStoreID
  else match c.getStore storeID with
    | none => .error (.invalidStoreID storeID)
    | some store => .ok store

/-- The branch of `putStore` that updates a known store `s` from `store`: its
address and version, and the labels merged; the state stays. -/
def updateStore (s : StoreInfo) (store : Metapb.Store) : StoreInfo :=
  let labels := StoreInfo.mergeLabels s.store.labels store.labels
  { s with store := { s.store with address := store.address, version := store.version, labels := labels } }

/-- The store `putStore` writes: a new store, or the known one updated. -/
def putStoreTarget (store : Metapb.Store) : StoreInfo :=
  match c.getStore store.id with
  | none => newStoreInfo store
  | some s => updateStore s store

/-- `RaftCluster.putStore(store)`. The warnings for missing location labels
are left out. -/
def putStore (sv : Semver) (store : Metapb.Store) (saved : Bool) : Except StoreError StoreCluster :=
  if store.id = 0 then .error .invalidPutStore
  else match parseVersion sv store.version with
  | none => .error .invalidVersion
  | some v =>
    if !isCompatible sv c.clusterVersion v then .error (.incompatibleVersion c.clusterVersion v)
    -- a new store may take the address of a tombstone
    else match c.getStores.find? (fun s => !s.isTombstone && s.getId != store.id && s.store.address == store.address) with
    | some s => .error (.duplicatedAddress s.getId)
    | none =>
      c.putStoreLocked (c.putStoreTarget store) saved

/-- `RemoveStore(storeID)`: `Up` to `Offline`. -/
def removeStore (storeID : UInt64) (saved : Bool) : Except StoreError StoreCluster :=
  match c.getStore storeID with
  | none => .error (.storeNotFound storeID)
  | some store =>
    if store.isOffline then .ok c
    else if store.isTombstone then .error (.storeTombstoned storeID)
    else c.putStoreLocked { store with store := { store.store with state := .offline } } saved

/-- `BuryStore(storeID, force)`: `Offline` to `Tombstone`, and `Up` to
`Tombstone` when forced. -/
def buryStore (storeID : UInt64) (force saved : Bool) : Except StoreError StoreCluster :=
  match c.getStore storeID with
  | none => .error (.storeNotFound storeID)
  | some store =>
    if store.isTombstone then .ok c
    else if store.isUp && !force then .error .storeIsUp
    else c.putStoreLocked { store with store := { store.store with state := .tombstone } } saved

/-- `UpdateStoreLabels(storeID, labels)`: `putStore` of the store with the new
labels, which it merges. -/
def updateStoreLabels (sv : Semver) (storeID : UInt64) (labels : List StoreLabel) (saved : Bool) :
    Except StoreError StoreCluster :=
  match c.getStore storeID with
  | none => .error (.invalidStoreID storeID)
  | some store => c.putStore sv { store.store with labels := labels } saved

/-- One round of the loop of `checkStores`, on the copy `store` taken before
the loop: a store that is not up with room and holds no region is buried.
Failures are only logged, and so are the counts of up and offline stores. -/
def checkStoresRound (regions : RegionsInfo) (lowSpaceRatio : Float) (saved : UInt64 → Bool)
    (store : StoreInfo) : StoreCluster :=
  if store.store.state != .offline && store.store.state == .up && !store.isLowSpace lowSpaceRatio then c
  else if regions.getStoreRegionCount store.getId == 0 then
    match c.buryStore store.getId false (saved store.getId) with
    | .ok next => next
    | .error _ => c
  else c

/-- `checkStores()`; `saved id` is the outcome of saving store `id`. -/
def checkStores (regions : RegionsInfo) (lowSpaceRatio : Float) (saved : UInt64 → Bool) : StoreCluster :=
  c.getStores.foldl (fun cur store => cur.checkStoresRound regions lowSpaceRatio saved store) c

/-- `clusterInfo.handleStoreHeartbeat(stats)`, at time `now`. -/
def handleStoreHeartbeat (stats : Pdpb.StoreStats) (now : Int) : Except StoreError StoreCluster :=
  match c.getStore stats.storeId with
  | none => .error (.storeNotFound stats.storeId)
  | some store =>
    .ok (c.setStore { store with stats := stats, lastHeartbeatTS := now })

/-- `checkStore2(cluster, storeID)`: the `STORE_TOMBSTONE` answer for a
tombstone store. -/
def checkStore2 (storeID : UInt64) : Option StoreResponse :=
  match c.raftGetStore storeID with
  | .ok store => if store.store.state == .tombstone then some .storeTombstone else none
  | .error _ => none

section Versions

variable (sv : Semver)

/-- One round of the loop of `OnStoreVersionChange`: `v` replaces the least
version so far when there is none or `v` is below it. -/
def minUpdate (minVersion : Option Version) (v : Version) : Option Version :=
  if minVersion.all (sv.lessThan v ·) then some v else minVersion

/-- The loop of `OnStoreVersionChange` over `stores`, skipping tombstones; the
outer `none` is the fatal error of `MustParseVersion`. -/
def minStoreVersion : List StoreInfo → Option Version → Option (Option Version)
  | [], minVersion => some minVersion
  | s :: stores, minVersion =>
    if s.isTombstone then minStoreVersion stores minVersion
    else match parseVersion sv s.store.version with
      | none => none
      | some v => minStoreVersion stores (minUpdate sv minVersion v)

/-- `OnStoreVersionChange()`: `none` when it stops the server, on the nil
minimum of a cluster of tombstones or a fatal `MustParseVersion`. A failed
persist is only logged. -/
def onStoreVersionChange : Option StoreCluster := do
  let minVersion ← minStoreVersion sv c.getStores none
  let m ← minVersion
  if sv.lessThan c.clusterVersion m then some { c with clusterVersion := m } else some c

/-- `Server.PutStore(request)`, once the header is valid and the cluster
bootstrapped. -/
def serverPutStore (store : Metapb.Store) (saved : Bool) : Option (StoreCluster × StoreResponse) :=
  match c.checkStore2 store.id with
  | some err => some (c, err)
  | none =>
    match c.putStore sv store saved with
    | .error err => some (c, .unknown err)
    | .ok c' => (c'.onStoreVersionChange sv).map (·, .ok)

end Versions

/-- `Server.StoreHeartbeat(request)`, once the header and stats are valid and
the cluster bootstrapped. -/
def serverStoreHeartbeat (stats : Pdpb.StoreStats) (now : Int) : StoreCluster × StoreResponse :=
  match c.checkStore2 stats.storeId with
  | some err => (c, err)
  | none =>
    match c.handleStoreHeartbeat stats now with
    | .error err => (c, .unknown err)
    | .ok c' => (c', .ok)

end StoreCluster

/-- The calls on the stores, with the outcome of each KV save. -/
inductive StoreEvent
  /-- gRPC `PutStore` -/
  | putStore (store : Metapb.Store) (saved : Bool)
  /-- gRPC `StoreHeartbeat`, at time `now` -/
  | storeHeartbeat (stats : Pdpb.StoreStats) (now : Int)
  | removeStore (storeID : UInt64) (saved : Bool)
  | buryStore (storeID : UInt64) (force saved : Bool)
  | updateStoreLabels (storeID : UInt64) (labels : List StoreLabel) (saved : Bool)
  /-- a run of `checkStores` over the regions and options of the moment -/
  | checkStores (regions : RegionsInfo) (lowSpaceRatio : Float) (saved : UInt64 → Bool)

/-- The event buries `x` with force. -/
def StoreEvent.forces : StoreEvent → UInt64 → Bool
  | .buryStore storeID force _, x => storeID == x && force
  | _, _ => false

namespace StoreCluster

/-- The cluster after a call that may fail, which leaves it as it was. -/
def keepOnError (c : StoreCluster) (r : Except StoreError StoreCluster) : StoreCluster := r.toOption.getD c

variable (sv : Semver)

/-- The cluster after one event; `none` when the server stops. -/
def step (c : StoreCluster) : StoreEvent → Option StoreCluster
  | .putStore store saved => (c.serverPutStore sv store saved).map (·.1)
  | .storeHeartbeat stats now => some (c.serverStoreHeartbeat stats now).1
  | .removeStore storeID saved => some (c.keepOnError (c.removeStore storeID saved))
  | .buryStore storeID force saved => some (c.keepOnError (c.buryStore storeID force saved))
  | .updateStoreLabels storeID labels saved => some (c.keepOnError (c.updateStoreLabels sv storeID labels saved))
  | .checkStores regions lowSpaceRatio saved => some (c.checkStores regions lowSpaceRatio saved)

/-- The cluster after a sequence of events. -/
def run (c : StoreCluster) : List StoreEvent → Option StoreCluster
  | [] => some c
  | e :: events => (c.step sv e).bind (·.run events)

end StoreCluster

/-! ## Reading the stores back -/

namespace StoreCluster

variable {c c' : StoreCluster} {sv : Semver}

/-- The state of store `x`, if the cluster has it. -/
def stateOf (c : StoreCluster) (x : UInt64) : Option StoreState := (c.getStore x).map (·.store.state)

/-- Every store is kept under its own id. -/
def Keyed (c : StoreCluster) : Prop := ∀ x s, c.getStore x = some s → s.getId = x

/-- The state of a store found in the cluster. -/
theorem stateOf_of_getStore {x : UInt64} {s : StoreInfo} (hs : c.getStore x = some s) :
    c.stateOf x = some s.store.state := by
  rw [stateOf, hs]
  rfl

theorem mem_getStores {s : StoreInfo} : s ∈ c.getStores ↔ ∃ x, c.getStore x = some s := by
  simp only [getStores, getStore, List.mem_map, ← Option.mem_def, AList.mem_lookup_iff]
  constructor
  · rintro ⟨⟨x, s'⟩, hmem, rfl⟩
    exact ⟨x, hmem⟩
  · rintro ⟨x, hmem⟩
    exact ⟨⟨x, s⟩, hmem, rfl⟩

@[simp] theorem getStore_setStore (s : StoreInfo) (x : UInt64) :
    (c.setStore s).getStore x = if x = s.getId then some s else c.getStore x := by
  unfold getStore setStore
  split_ifs with hx
  · subst hx
    exact AList.lookup_insert _
  · exact AList.lookup_insert_ne hx

@[simp] theorem clusterVersion_setStore (s : StoreInfo) : (c.setStore s).clusterVersion = c.clusterVersion := rfl

theorem stateOf_setStore (s : StoreInfo) (x : UInt64) :
    (c.setStore s).stateOf x = if x = s.getId then some s.store.state else c.stateOf x := by
  unfold stateOf
  rw [getStore_setStore]
  split_ifs <;> rfl

theorem Keyed.setStore (hk : c.Keyed) (s : StoreInfo) : (c.setStore s).Keyed := by
  intro x s' hs'
  rw [getStore_setStore] at hs'
  split_ifs at hs' with hx
  · cases hs'
    exact hx.symm
  · exact hk x s' hs'

theorem Keyed.getId (hk : c.Keyed) {x : UInt64} {s : StoreInfo} (hs : c.getStore x = some s) : s.getId = x :=
  hk x s hs

theorem putStoreLocked_eq_ok {s : StoreInfo} {saved : Bool} (h : c.putStoreLocked s saved = .ok c') :
    c' = c.setStore s := by
  unfold putStoreLocked at h
  split at h
  · cases h
    rfl
  · cases h

/-- A call that fails leaves the cluster, so a property of every successful
outcome that the cluster has holds after the call. -/
theorem keepOnError_of {P : StoreCluster → Prop} {r : Except StoreError StoreCluster}
    (hc : P c) (hr : ∀ c', r = .ok c' → P c') : P (c.keepOnError r) := by
  unfold keepOnError
  cases r with
  | error err => exact hc
  | ok c' => exact hr c' rfl

/-! ## One lemma per call -/

theorem removeStore_eq_ok {storeID : UInt64} {saved : Bool} (h : c.removeStore storeID saved = .ok c') :
    c' = c ∨ ∃ s, c.getStore storeID = some s ∧ s.store.state = .up ∧
      c' = c.setStore { s with store := { s.store with state := .offline } } := by
  unfold removeStore at h
  split at h
  · cases h
  · next s hs =>
      split_ifs at h with hoff htomb
      · cases h
        exact .inl rfl
      · refine .inr ⟨s, hs, ?_, putStoreLocked_eq_ok h⟩
        cases hst : s.store.state <;> simp_all [StoreInfo.isOffline, StoreInfo.isTombstone]

theorem buryStore_eq_ok {storeID : UInt64} {force saved : Bool} (h : c.buryStore storeID force saved = .ok c') :
    c' = c ∨ ∃ s, c.getStore storeID = some s ∧
      (s.store.state = .offline ∨ (s.store.state = .up ∧ force = true)) ∧
      c' = c.setStore { s with store := { s.store with state := .tombstone } } := by
  unfold buryStore at h
  split at h
  · cases h
  · next s hs =>
      split_ifs at h with htomb hup
      · cases h
        exact .inl rfl
      · refine .inr ⟨s, hs, ?_, putStoreLocked_eq_ok h⟩
        cases hst : s.store.state <;> cases force <;> simp_all [StoreInfo.isUp, StoreInfo.isTombstone]

theorem handleStoreHeartbeat_eq_ok {stats : Pdpb.StoreStats} {now : Int}
    (h : c.handleStoreHeartbeat stats now = .ok c') :
    ∃ s, c.getStore stats.storeId = some s ∧ c' = c.setStore { s with stats := stats, lastHeartbeatTS := now } := by
  unfold handleStoreHeartbeat at h
  split at h
  · cases h
  · next s hs =>
      cases h
      exact ⟨s, hs, rfl⟩

theorem putStore_eq_ok {store : Metapb.Store} {saved : Bool} (h : c.putStore sv store saved = .ok c') :
    ∃ v, parseVersion sv store.version = some v ∧ isCompatible sv c.clusterVersion v = true ∧
      c' = c.setStore (c.putStoreTarget store) := by
  unfold putStore at h
  split_ifs at h with hid
  split at h
  · cases h
  · next v hv =>
      split_ifs at h with hcompat
      split at h
      · cases h
      · exact ⟨v, hv, by simpa using hcompat, putStoreLocked_eq_ok h⟩

/-- The store `putStore` writes has the id and version of the request, and the
state of the known store, if there is one. -/
theorem putStoreTarget_spec (hk : c.Keyed) (store : Metapb.Store) :
    (c.putStoreTarget store).getId = store.id ∧ (c.putStoreTarget store).store.version = store.version ∧
      (c.putStoreTarget store).store.state = ((c.stateOf store.id).getD store.state) := by
  unfold putStoreTarget stateOf
  split
  · next hs => simp [hs, newStoreInfo, StoreInfo.getId]
  · next s hs =>
      have hid := hk.getId hs
      simp only [StoreInfo.getId] at hid
      simp [hs, updateStore, StoreInfo.getId, hid]

theorem updateStoreLabels_eq_ok {storeID : UInt64} {labels : List StoreLabel} {saved : Bool}
    (h : c.updateStoreLabels sv storeID labels saved = .ok c') :
    ∃ s, c.getStore storeID = some s ∧ c.putStore sv { s.store with labels := labels } saved = .ok c' := by
  unfold updateStoreLabels at h
  split at h
  · cases h
  · next s hs => exact ⟨s, hs, h⟩

/-! ## The moves of a store's state -/

/-- Each store of `c` is in `c'`, in the same state or buried from `Offline`
with no region. -/
def Buries (regions : RegionsInfo) (c c' : StoreCluster) : Prop :=
  ∀ x st, c.stateOf x = some st →
    c'.stateOf x = some st ∨ (st = .offline ∧ c'.stateOf x = some .tombstone ∧ regions.getStoreRegionCount x = 0)

theorem Buries.refl (regions : RegionsInfo) (c : StoreCluster) : Buries regions c c :=
  fun _ _ hx => .inl hx

theorem Buries.trans {regions : RegionsInfo} {c₁ c₂ c₃ : StoreCluster} (h₁ : Buries regions c₁ c₂)
    (h₂ : Buries regions c₂ c₃) : Buries regions c₁ c₃ := by
  intro x st hx
  rcases h₁ x st hx with h | ⟨rfl, htomb, hcount⟩
  · exact h₂ x st h
  · -- a tombstone stays one
    rcases h₂ x .tombstone htomb with h | ⟨hst, -⟩
    · exact .inr ⟨rfl, h, hcount⟩
    · cases hst

theorem buries_checkStoresRound {regions : RegionsInfo} {lowSpaceRatio : Float} {saved : UInt64 → Bool}
    (hk : c.Keyed) (store : StoreInfo) :
    Buries regions c (c.checkStoresRound regions lowSpaceRatio saved store) ∧
      (c.checkStoresRound regions lowSpaceRatio saved store).Keyed := by
  unfold checkStoresRound
  split_ifs with hup hcount
  · exact ⟨Buries.refl _ _, hk⟩
  · split
    · next next hbury =>
        rcases buryStore_eq_ok hbury with rfl | ⟨s, hs, hst, rfl⟩
        · exact ⟨Buries.refl _ _, hk⟩
        refine ⟨fun x st hx => ?_, hk.setStore _⟩
        have hid : s.getId = store.getId := hk.getId hs
        rw [stateOf_setStore]
        split_ifs with hxs
        · -- the buried store was offline: `BuryStore` without force fails on an up one
          have hoff : s.store.state = .offline := by simpa using hst
          have hx' : c.stateOf x = some s.store.state := by
            rw [show x = store.getId from hxs.trans hid]
            exact stateOf_of_getStore hs
          rw [hx', hoff] at hx
          cases hx
          refine .inr ⟨rfl, rfl, ?_⟩
          rw [show x = store.getId from hxs.trans hid]
          simpa using hcount
        · exact .inl hx
    · exact ⟨Buries.refl _ _, hk⟩
  · exact ⟨Buries.refl _ _, hk⟩

theorem Keyed.checkStoresRound {regions : RegionsInfo} {lowSpaceRatio : Float} {saved : UInt64 → Bool}
    (hk : c.Keyed) (store : StoreInfo) : (c.checkStoresRound regions lowSpaceRatio saved store).Keyed :=
  (buries_checkStoresRound hk store).2

/-- What every round of `checkStores` keeps on a keyed cluster holds after it. -/
theorem checkStores_induction {regions : RegionsInfo} {lowSpaceRatio : Float} {saved : UInt64 → Bool}
    (P : StoreCluster → Prop)
    (hround : ∀ cur store, cur.Keyed → P cur → P (cur.checkStoresRound regions lowSpaceRatio saved store))
    (hk : c.Keyed) (hc : P c) : P (c.checkStores regions lowSpaceRatio saved) ∧ (c.checkStores regions lowSpaceRatio saved).Keyed := by
  unfold checkStores
  -- the loop runs over the copies taken before it
  suffices h : ∀ (l : List StoreInfo) (cur : StoreCluster), cur.Keyed → P cur →
      P (l.foldl (fun cur store => cur.checkStoresRound regions lowSpaceRatio saved store) cur) ∧
      (l.foldl (fun cur store => cur.checkStoresRound regions lowSpaceRatio saved store) cur).Keyed from
    h _ c hk hc
  intro l
  induction l with
  | nil => exact fun cur hk hc => ⟨hc, hk⟩
  | cons store l ih => exact fun cur hk hc => ih _ (hk.checkStoresRound store) (hround cur store hk hc)

theorem buries_checkStores {regions : RegionsInfo} {lowSpaceRatio : Float} {saved : UInt64 → Bool}
    (hk : c.Keyed) : Buries regions c (c.checkStores regions lowSpaceRatio saved) :=
  (checkStores_induction (Buries regions c) (fun _ store hk hb => hb.trans (buries_checkStoresRound hk store).1)
    hk (Buries.refl _ _)).1

end StoreCluster

/-- How one event may move the state of a store: it stays, goes from `Up` to
`Offline` or from `Offline` to `Tombstone`, or, when forced, from `Up` to
`Tombstone`. -/
inductive Move : Bool → StoreState → StoreState → Prop
  | stay (force : Bool) (st : StoreState) : Move force st st
  | remove (force : Bool) : Move force .up .offline
  | bury (force : Bool) : Move force .offline .tombstone
  | forceBury : Move true .up .tombstone

/-- The states a store may reach over any number of events. -/
def Reaches : StoreState → StoreState → Prop := Relation.ReflTransGen fun st st' => ∃ force, Move force st st'

theorem Move.of_tombstone {force : Bool} {st : StoreState} (h : Move force .tombstone st) : st = .tombstone := by
  cases h
  rfl

theorem Move.of_offline {force : Bool} {st : StoreState} (h : Move force .offline st) :
    st = .offline ∨ st = .tombstone := by
  cases h with
  | stay => exact .inl rfl
  | bury => exact .inr rfl

/-- Without force, a store becomes a tombstone only from `Offline`. -/
theorem Move.offline_of_tombstone {st : StoreState} (h : Move false st .tombstone) (hst : st ≠ .tombstone) :
    st = .offline := by
  cases h with
  | stay => exact absurd rfl hst
  | bury => rfl

theorem Reaches.tombstone {st : StoreState} (h : Reaches .tombstone st) : st = .tombstone := by
  induction h with
  | refl => rfl
  | tail _ hmove ih =>
    subst ih
    obtain ⟨_, hmove⟩ := hmove
    exact hmove.of_tombstone

theorem Reaches.offline {st : StoreState} (h : Reaches .offline st) : st = .offline ∨ st = .tombstone := by
  induction h with
  | refl => exact .inl rfl
  | tail _ hmove ih =>
    obtain ⟨_, hmove⟩ := hmove
    rcases ih with rfl | rfl
    · exact hmove.of_offline
    · exact .inr hmove.of_tombstone

namespace StoreCluster

variable {c c' : StoreCluster} {sv : Semver}

/-- Every store of `c` is in `c'`, its state moved by `Move (force x)`. -/
def Moves (force : UInt64 → Bool) (c c' : StoreCluster) : Prop :=
  ∀ x st, c.stateOf x = some st → ∃ st', c'.stateOf x = some st' ∧ Move (force x) st st'

theorem Moves.refl (force : UInt64 → Bool) (c : StoreCluster) : Moves force c c :=
  fun _ st hx => ⟨st, hx, .stay _ st⟩

theorem Buries.moves {regions : RegionsInfo} (force : UInt64 → Bool) (h : Buries regions c c') : Moves force c c' := by
  intro x st hx
  rcases h x st hx with h | ⟨rfl, h, -⟩
  · exact ⟨st, h, .stay _ st⟩
  · exact ⟨.tombstone, h, .bury _⟩

theorem stateOf_eq_of_stores_eq (h : c'.stores = c.stores) : c'.stateOf = c.stateOf := by
  funext x
  simp only [stateOf, getStore, h]

theorem Moves.of_stores_eq {force : UInt64 → Bool} {c₁ : StoreCluster} (hm : Moves force c c₁)
    (h : c'.stores = c₁.stores) : Moves force c c' := by
  rw [Moves, stateOf_eq_of_stores_eq h]
  exact hm

/-- Writing a store moves only that store, along `Move`. -/
theorem moves_setStore {force : UInt64 → Bool} {s : StoreInfo}
    (h : ∀ st, c.stateOf s.getId = some st → Move (force s.getId) st s.store.state) : Moves force c (c.setStore s) := by
  intro x st hx
  rw [stateOf_setStore]
  split_ifs with hxs
  · subst hxs
    exact ⟨s.store.state, rfl, h st hx⟩
  · exact ⟨st, hx, .stay _ st⟩

theorem moves_removeStore (hk : c.Keyed) (force : UInt64 → Bool) {storeID : UInt64} {saved : Bool}
    (h : c.removeStore storeID saved = .ok c') : Moves force c c' := by
  rcases removeStore_eq_ok h with rfl | ⟨s, hs, hup, rfl⟩
  · exact Moves.refl _ _
  · refine moves_setStore fun st hst => ?_
    rw [show ({ s with store := { s.store with state := .offline } } : StoreInfo).getId = storeID from (hk.getId hs : s.getId = storeID),
      stateOf_of_getStore hs, hup] at hst
    cases hst
    exact .remove _

theorem moves_buryStore (hk : c.Keyed) {storeID : UInt64} {force saved : Bool}
    (h : c.buryStore storeID force saved = .ok c') : Moves (fun x => storeID == x && force) c c' := by
  rcases buryStore_eq_ok h with rfl | ⟨s, hs, hst, rfl⟩
  · exact Moves.refl _ _
  · refine moves_setStore fun st hst' => ?_
    have hid : ({ s with store := { s.store with state := .tombstone } } : StoreInfo).getId = storeID :=
      (hk.getId hs : s.getId = storeID)
    rw [hid] at hst' ⊢
    rw [stateOf_of_getStore hs] at hst'
    cases hst'
    rcases hst with hoff | ⟨hup, rfl⟩
    · rw [hoff]
      exact .bury _
    · rw [hup, beq_self_eq_true, Bool.true_and]
      exact .forceBury

theorem moves_putStore (hk : c.Keyed) (force : UInt64 → Bool) {store : Metapb.Store} {saved : Bool}
    (h : c.putStore sv store saved = .ok c') : Moves force c c' := by
  obtain ⟨-, -, -, rfl⟩ := putStore_eq_ok h
  obtain ⟨hid, -, hstate⟩ := putStoreTarget_spec hk store
  refine moves_setStore fun st hst => ?_
  -- a known store keeps its state
  rw [hid] at hst
  rw [hstate, hst]
  exact .stay _ st

theorem moves_handleStoreHeartbeat (hk : c.Keyed) (force : UInt64 → Bool) {stats : Pdpb.StoreStats} {now : Int}
    (h : c.handleStoreHeartbeat stats now = .ok c') : Moves force c c' := by
  obtain ⟨s, hs, rfl⟩ := handleStoreHeartbeat_eq_ok h
  refine moves_setStore fun st hst => ?_
  rw [show ({ s with stats := stats, lastHeartbeatTS := now } : StoreInfo).getId = stats.storeId from (hk.getId hs : s.getId = stats.storeId),
    stateOf_of_getStore hs] at hst
  cases hst
  exact .stay _ _

theorem onStoreVersionChange_eq_some (h : c.onStoreVersionChange sv = some c') :
    c'.stores = c.stores ∧ (c'.clusterVersion = c.clusterVersion ∨
      (sv.lessThan c.clusterVersion c'.clusterVersion = true ∧
        minStoreVersion sv c.getStores none = some (some c'.clusterVersion))) := by
  unfold onStoreVersionChange at h
  obtain ⟨mv, hmv, h₁⟩ := Option.bind_eq_some_iff.mp h
  obtain ⟨m, rfl, h₂⟩ := Option.bind_eq_some_iff.mp h₁
  split_ifs at h₂ with hlt
  · cases h₂
    exact ⟨rfl, .inr ⟨hlt, hmv⟩⟩
  · cases h₂
    exact ⟨rfl, .inl rfl⟩

theorem serverPutStore_eq_some {store : Metapb.Store} {saved : Bool} {r : StoreResponse}
    (h : c.serverPutStore sv store saved = some (c', r)) :
    c' = c ∨ ∃ c₁, c.putStore sv store saved = .ok c₁ ∧ c₁.onStoreVersionChange sv = some c' := by
  unfold serverPutStore at h
  split at h
  · cases h
    exact .inl rfl
  · split at h
    · cases h
      exact .inl rfl
    · next c₁ hput =>
        obtain ⟨c₂, hc₂, heq⟩ := Option.map_eq_some_iff.mp h
        cases heq
        exact .inr ⟨c₁, hput, hc₂⟩

theorem serverStoreHeartbeat_fst (stats : Pdpb.StoreStats) (now : Int) :
    (c.serverStoreHeartbeat stats now).1 = c ∨
      c.handleStoreHeartbeat stats now = .ok (c.serverStoreHeartbeat stats now).1 := by
  unfold serverStoreHeartbeat
  split
  · exact .inl rfl
  · split
    · exact .inl rfl
    · next c₁ hc₁ => exact .inr hc₁

theorem Keyed.putStore (hk : c.Keyed) {store : Metapb.Store} {saved : Bool}
    (h : c.putStore sv store saved = .ok c') : c'.Keyed := by
  obtain ⟨-, -, -, rfl⟩ := putStore_eq_ok h
  exact hk.setStore _

/-- Every event moves each store of the cluster along `Move`, with force only
for the store a forced `BuryStore` names. -/
theorem step_move (hk : c.Keyed) {e : StoreEvent} (h : c.step sv e = some c') : Moves e.forces c c' ∧ c'.Keyed := by
  cases e with
  | putStore store saved =>
    obtain ⟨⟨c₂, r⟩, hp, rfl⟩ := Option.map_eq_some_iff.mp h
    rcases serverPutStore_eq_some hp with rfl | ⟨c₁, hput, hver⟩
    · exact ⟨Moves.refl _ _, hk⟩
    · have hstores := (onStoreVersionChange_eq_some hver).1
      refine ⟨(moves_putStore hk _ hput).of_stores_eq hstores, ?_⟩
      intro x s hs
      exact (hk.putStore hput) x s (by simpa only [getStore, hstores] using hs)
  | storeHeartbeat stats now =>
    cases h
    rcases serverStoreHeartbeat_fst (c := c) stats now with heq | hok
    · rw [heq]
      exact ⟨Moves.refl _ _, hk⟩
    · refine ⟨moves_handleStoreHeartbeat hk _ hok, ?_⟩
      obtain ⟨_, -, heq⟩ := handleStoreHeartbeat_eq_ok hok
      rw [heq]
      exact hk.setStore _
  | removeStore storeID saved =>
    cases h
    refine keepOnError_of (P := fun c' => Moves _ c c' ∧ c'.Keyed) ⟨Moves.refl _ _, hk⟩ fun c' hr =>
      ⟨moves_removeStore hk _ hr, ?_⟩
    rcases removeStore_eq_ok hr with rfl | ⟨_, -, -, rfl⟩
    · exact hk
    · exact hk.setStore _
  | buryStore storeID force saved =>
    cases h
    refine keepOnError_of (P := fun c' => Moves _ c c' ∧ c'.Keyed) ⟨Moves.refl _ _, hk⟩ fun c' hr =>
      ⟨moves_buryStore hk hr, ?_⟩
    rcases buryStore_eq_ok hr with rfl | ⟨_, -, -, rfl⟩
    · exact hk
    · exact hk.setStore _
  | updateStoreLabels storeID labels saved =>
    cases h
    refine keepOnError_of (P := fun c' => Moves _ c c' ∧ c'.Keyed) ⟨Moves.refl _ _, hk⟩ fun c' hr => ?_
    obtain ⟨_, -, hput⟩ := updateStoreLabels_eq_ok hr
    exact ⟨moves_putStore hk _ hput, hk.putStore hput⟩
  | checkStores regions lowSpaceRatio saved =>
    cases h
    exact ⟨(buries_checkStores hk).moves _, (checkStores_induction (fun _ => True) (fun _ _ _ _ => trivial) hk trivial).2⟩

theorem run_cons (e : StoreEvent) (events : List StoreEvent) :
    c.run sv (e :: events) = (c.step sv e).bind (·.run sv events) := rfl

/-- Over any run from a keyed cluster, every store reaches a state its own
moves lead to. -/
theorem run_reaches (hk : c.Keyed) {events : List StoreEvent} (h : c.run sv events = some c') :
    c'.Keyed ∧ ∀ x st, c.stateOf x = some st → ∃ st', c'.stateOf x = some st' ∧ Reaches st st' := by
  induction events generalizing c with
  | nil =>
    cases h
    exact ⟨hk, fun x st hx => ⟨st, hx, .refl⟩⟩
  | cons e events ih =>
    rw [run_cons] at h
    obtain ⟨c₁, hstep, hrest⟩ := Option.bind_eq_some_iff.mp h
    obtain ⟨hmoves, hk₁⟩ := step_move hk hstep
    obtain ⟨hk', hreach⟩ := ih hk₁ hrest
    refine ⟨hk', fun x st hx => ?_⟩
    obtain ⟨st₁, hx₁, hmove⟩ := hmoves x st hx
    obtain ⟨st', hx', hreach'⟩ := hreach x st₁ hx₁
    exact ⟨st', hx', Relation.ReflTransGen.head ⟨_, hmove⟩ hreach'⟩

/-- A tombstone stays a tombstone, an offline store never comes back up, and
from any state reached, a store becomes a tombstone without force only from
`Offline`, and by `checkStores` only when it holds no region. -/
theorem store_state_absorbing (sv : Semver) (c : StoreCluster) (hkeyed : c.Keyed) (events : List StoreEvent)
    (c' : StoreCluster) (hrun : c.run sv events = some c') (x : UInt64) :
    (c.stateOf x = some .tombstone → c'.stateOf x = some .tombstone) ∧
    (c.stateOf x = some .offline → c'.stateOf x = some .offline ∨ c'.stateOf x = some .tombstone) ∧
    ∀ e c₁ st, c'.step sv e = some c₁ → c'.stateOf x = some st → st ≠ .tombstone →
      c₁.stateOf x = some .tombstone → e.forces x = false →
      st = .offline ∧ ∀ regions lowSpaceRatio saved, e = .checkStores regions lowSpaceRatio saved →
        regions.getStoreRegionCount x = 0 := by
  obtain ⟨hk', hreach⟩ := run_reaches hkeyed hrun
  refine ⟨fun hx => ?_, fun hx => ?_, fun e c₁ st hstep hx hst htomb hforce => ?_⟩
  · obtain ⟨st', hx', hr⟩ := hreach x _ hx
    rw [hx', hr.tombstone]
  · obtain ⟨st', hx', hr⟩ := hreach x _ hx
    rcases hr.offline with rfl | rfl
    · exact .inl hx'
    · exact .inr hx'
  · obtain ⟨st', hx₁, hmove⟩ := (step_move hk' hstep).1 x st hx
    rw [htomb] at hx₁
    cases hx₁
    rw [hforce] at hmove
    refine ⟨hmove.offline_of_tombstone hst, fun regions lowSpaceRatio saved he => ?_⟩
    subst he
    cases hstep
    rcases buries_checkStores hk' x st hx with h | ⟨-, -, hcount⟩
    · rw [h] at htomb
      cases htomb
      exact absurd rfl hst
    · exact hcount

/-- A go-semver that parses nothing, with one pre-release order. -/
def plainSemver : Semver := ⟨fun _ => none, fun _ _ => 0⟩

/-- Store 1, up and of the base version, in a cluster at the base version. -/
def oneStoreCluster : StoreCluster := ⟨(∅ : AList fun _ : UInt64 => StoreInfo).insert 1 (upStore 1 []), baseVersion⟩

theorem getStore_oneStoreCluster {x : UInt64} {s : StoreInfo} (hs : oneStoreCluster.getStore x = some s) :
    x = 1 ∧ s = upStore 1 [] := by
  unfold oneStoreCluster getStore at hs
  by_cases hx : x = 1
  · subst hx
    rw [AList.lookup_insert] at hs
    cases hs
    exact ⟨rfl, rfl⟩
  · rw [AList.lookup_insert_ne hx] at hs
    cases hs

theorem keyed_oneStoreCluster : oneStoreCluster.Keyed := by
  intro x s hs
  obtain ⟨rfl, rfl⟩ := getStore_oneStoreCluster hs
  rfl

/-- Store 1 removed, then buried. -/
def retireEvents : List StoreEvent := [.removeStore 1 true, .buryStore 1 false true]

/-- The cluster after `retireEvents`. -/
def retiredCluster : StoreCluster := (oneStoreCluster.run plainSemver retireEvents).getD oneStoreCluster

example : retiredCluster.stateOf 1 = some .tombstone := by decide

theorem store_state_absorbing_retire :
    oneStoreCluster.Keyed ∧ oneStoreCluster.run plainSemver retireEvents = some retiredCluster ∧
      (oneStoreCluster.stateOf 1 = some .tombstone → retiredCluster.stateOf 1 = some .tombstone) ∧
      (oneStoreCluster.stateOf 1 = some .offline →
        retiredCluster.stateOf 1 = some .offline ∨ retiredCluster.stateOf 1 = some .tombstone) ∧
      ∀ e c₁ st, retiredCluster.step plainSemver e = some c₁ → retiredCluster.stateOf 1 = some st →
        st ≠ .tombstone → c₁.stateOf 1 = some .tombstone → e.forces 1 = false →
        st = .offline ∧ ∀ regions lowSpaceRatio saved, e = .checkStores regions lowSpaceRatio saved →
          regions.getStoreRegionCount 1 = 0 := by
  have hrun : oneStoreCluster.run plainSemver retireEvents = some retiredCluster := rfl
  exact ⟨keyed_oneStoreCluster, hrun,
    store_state_absorbing plainSemver oneStoreCluster keyed_oneStoreCluster retireEvents retiredCluster hrun 1⟩

/-! ## The cluster version -/

open Version

section Bounds

variable (sv)

/-- The least version so far is some `m` with `R m v`. -/
def Bounds (R : Version → Version → Prop) (minVersion : Option Version) (v : Version) : Prop :=
  ∃ m, minVersion = some m ∧ R m v

/-- A relation that `minUpdate` keeps from the least version so far to every
version seen holds, after the loop, from its result to the initial bounds and
to every version of a store that is not a tombstone. -/
theorem minStoreVersion_bound (R : Version → Version → Prop)
    (hnew : ∀ mv v, Bounds R (minUpdate sv mv v) v)
    (hold : ∀ mv v b, Bounds R mv b → Bounds R (minUpdate sv mv v) b) :
    ∀ (stores : List StoreInfo) (mv res : Option Version), minStoreVersion sv stores mv = some res →
      (∀ b, Bounds R mv b → Bounds R res b) ∧
      ∀ s ∈ stores, s.isTombstone = false → ∀ v, parseVersion sv s.store.version = some v → Bounds R res v := by
  intro stores
  induction stores with
  | nil =>
    intro mv res h
    cases h
    exact ⟨fun _ hb => hb, fun _ hs => absurd hs List.not_mem_nil⟩
  | cons s stores ih =>
    intro mv res h
    simp only [minStoreVersion] at h
    split_ifs at h with htomb
    · obtain ⟨hinit, hstores⟩ := ih mv res h
      refine ⟨hinit, fun s' hs' ht v hv => ?_⟩
      rcases List.mem_cons.mp hs' with rfl | hs'
      · rw [htomb] at ht
        cases ht
      · exact hstores s' hs' ht v hv
    · split at h
      · cases h
      · next v hv =>
          obtain ⟨hinit, hstores⟩ := ih _ res h
          refine ⟨fun b hb => hinit b (hold mv v b hb), fun s' hs' ht v' hv' => ?_⟩
          rcases List.mem_cons.mp hs' with rfl | hs'
          · rw [hv] at hv'
            cases hv'
            exact hinit _ (hnew mv v)
          · exact hstores s' hs' ht v' hv'

theorem minUpdate_cases (mv : Option Version) (v : Version) :
    (minUpdate sv mv v = some v ∧ mv.all (sv.lessThan v ·) = true) ∨
      (minUpdate sv mv v = mv ∧ ∃ m, mv = some m ∧ sv.lessThan v m = false) := by
  unfold minUpdate
  split_ifs with hall
  · exact .inl ⟨rfl, hall⟩
  · refine .inr ⟨rfl, ?_⟩
    cases mv with
    | none => exact absurd rfl hall
    | some m => exact ⟨m, rfl, by simpa using hall⟩

/-- The least version of the loop is at most every version seen, in
`(Major, Minor, Patch)`. -/
theorem minStoreVersion_patchLE {stores : List StoreInfo} {m : Version}
    (h : minStoreVersion sv stores none = some (some m)) :
    ∀ s ∈ stores, s.isTombstone = false → ∀ v, parseVersion sv s.store.version = some v → m.PatchLE v := by
  have hbound := (minStoreVersion_bound sv PatchLE (fun mv v => ?_) (fun mv v b hb => ?_) stores none _ h).2
  · intro s hs ht v hv
    obtain ⟨m', hm', hle⟩ := hbound s hs ht v hv
    cases hm'
    exact hle
  · rcases minUpdate_cases sv mv v with ⟨heq, -⟩ | ⟨heq, m, rfl, hlt⟩
    · exact ⟨v, heq, patchLE_refl v⟩
    · exact ⟨m, heq, patchLE_of_not_lessThan hlt⟩
  · obtain ⟨m, rfl, hle⟩ := hb
    rcases minUpdate_cases sv (some m) v with ⟨heq, hall⟩ | ⟨heq, -⟩
    · exact ⟨v, heq, (patchLE_of_lessThan (by simpa using hall)).trans hle⟩
    · exact ⟨m, heq, hle⟩

/-- The least version of the loop is the version of one of the stores. -/
theorem minStoreVersion_mem :
    ∀ (stores : List StoreInfo) (mv : Option Version) (m : Version), minStoreVersion sv stores mv = some (some m) →
      mv = some m ∨ ∃ s ∈ stores, s.isTombstone = false ∧ parseVersion sv s.store.version = some m := by
  intro stores
  induction stores with
  | nil =>
    intro mv m h
    cases h
    exact .inl rfl
  | cons s stores ih =>
    intro mv m h
    simp only [minStoreVersion] at h
    split_ifs at h with htomb
    · rcases ih mv m h with h | ⟨s', hs', ht, hv⟩
      · exact .inl h
      · exact .inr ⟨s', List.mem_cons_of_mem _ hs', ht, hv⟩
    · split at h
      · cases h
      · next v hv =>
          rcases ih _ m h with h | ⟨s', hs', ht, hv'⟩
          · -- the least version is `v` or was already the least
            rcases minUpdate_cases sv mv v with ⟨heq, -⟩ | ⟨heq, -⟩
            · rw [heq] at h
              cases h
              exact .inr ⟨s, List.mem_cons_self, by simpa using htomb, hv⟩
            · exact .inl (heq ▸ h)
          · exact .inr ⟨s', List.mem_cons_of_mem _ hs', ht, hv'⟩

end Bounds

/-- Every store that is not a tombstone has a version that parses, with a
`(Major, Minor)` at least the cluster version's. -/
def VersionSafe (sv : Semver) (c : StoreCluster) : Prop :=
  ∀ x s, c.getStore x = some s → s.isTombstone = false →
    ∃ v, parseVersion sv s.store.version = some v ∧ c.clusterVersion.MinorLE v

/-- `m` is the version of a store of `c` that is not a tombstone, and no such
store has a lower `(Major, Minor, Patch)`. -/
def IsLeastVersion (sv : Semver) (c : StoreCluster) (m : Version) : Prop :=
  (∃ x s, c.getStore x = some s ∧ s.isTombstone = false ∧ parseVersion sv s.store.version = some m) ∧
    ∀ x s v, c.getStore x = some s → s.isTombstone = false → parseVersion sv s.store.version = some v →
      m.PatchLE v

theorem VersionSafe.setStore (h : c.VersionSafe sv) {s : StoreInfo}
    (hs : s.isTombstone = false → ∃ v, parseVersion sv s.store.version = some v ∧ c.clusterVersion.MinorLE v) :
    (c.setStore s).VersionSafe sv := by
  intro x s' hs' ht
  rw [getStore_setStore] at hs'
  split_ifs at hs'
  · cases hs'
    exact hs ht
  · exact h x s' hs' ht

theorem VersionSafe.removeStore (hk : c.Keyed) (h : c.VersionSafe sv) {storeID : UInt64} {saved : Bool}
    (hr : c.removeStore storeID saved = .ok c') : c'.VersionSafe sv := by
  rcases removeStore_eq_ok hr with rfl | ⟨s, hs, hup, rfl⟩
  · exact h
  · -- the store was up, so its version was safe
    refine h.setStore fun _ => h storeID s hs ?_
    simp [StoreInfo.isTombstone, hup]

theorem VersionSafe.buryStore (h : c.VersionSafe sv) {storeID : UInt64} {force saved : Bool}
    (hr : c.buryStore storeID force saved = .ok c') : c'.VersionSafe sv := by
  rcases buryStore_eq_ok hr with rfl | ⟨s, -, -, rfl⟩
  · exact h
  · exact h.setStore fun ht => absurd ht (by simp [StoreInfo.isTombstone])

theorem VersionSafe.handleStoreHeartbeat (h : c.VersionSafe sv) {stats : Pdpb.StoreStats} {now : Int}
    (hr : c.handleStoreHeartbeat stats now = .ok c') : c'.VersionSafe sv := by
  obtain ⟨s, hs, rfl⟩ := handleStoreHeartbeat_eq_ok hr
  exact h.setStore fun ht => h _ s hs ht

theorem VersionSafe.putStore (hk : c.Keyed) (h : c.VersionSafe sv) {store : Metapb.Store} {saved : Bool}
    (hr : c.putStore sv store saved = .ok c') : c'.VersionSafe sv ∧ c'.clusterVersion = c.clusterVersion := by
  obtain ⟨v, hv, hcompat, rfl⟩ := putStore_eq_ok hr
  obtain ⟨-, hversion, -⟩ := putStoreTarget_spec hk store
  refine ⟨h.setStore fun _ => ⟨v, ?_, minorLE_of_isCompatible hcompat⟩, rfl⟩
  rw [hversion]
  exact hv

theorem VersionSafe.checkStoresRound (h : c.VersionSafe sv) (regions : RegionsInfo) (lowSpaceRatio : Float)
    (saved : UInt64 → Bool) (store : StoreInfo) :
    (c.checkStoresRound regions lowSpaceRatio saved store).VersionSafe sv ∧
      (c.checkStoresRound regions lowSpaceRatio saved store).clusterVersion = c.clusterVersion := by
  unfold StoreCluster.checkStoresRound
  split_ifs
  · exact ⟨h, rfl⟩
  · split
    · next next hbury =>
        refine ⟨h.buryStore hbury, ?_⟩
        rcases buryStore_eq_ok hbury with rfl | ⟨_, -, -, rfl⟩ <;> rfl
    · exact ⟨h, rfl⟩
  · exact ⟨h, rfl⟩

/-- Raising the cluster version to the least version of the stores keeps it
at most every store's. -/
theorem VersionSafe.onStoreVersionChange (h : c.VersionSafe sv) (hver : c.onStoreVersionChange sv = some c') :
    c'.VersionSafe sv := by
  obtain ⟨hstores, hcv | ⟨-, hmin⟩⟩ := onStoreVersionChange_eq_some hver
  · intro x s hs ht
    rw [hcv]
    exact h x s (by simpa only [getStore, hstores] using hs) ht
  · intro x s hs ht
    have hs' : c.getStore x = some s := by simpa only [getStore, hstores] using hs
    obtain ⟨v, hv, -⟩ := h x s hs' ht
    exact ⟨v, hv, (minStoreVersion_patchLE sv hmin s (mem_getStores.mpr ⟨x, hs'⟩) ht v hv).minorLE⟩

/-- Every event keeps the versions safe, and only `PutStore` changes the
cluster version, to a least version of the stores, which is above the old
one. -/
theorem VersionSafe.step (hk : c.Keyed) (h : c.VersionSafe sv) {e : StoreEvent}
    (hstep : c.step sv e = some c') :
    c'.VersionSafe sv ∧ (c'.clusterVersion = c.clusterVersion ∨
      (sv.lessThan c.clusterVersion c'.clusterVersion = true ∧ c'.IsLeastVersion sv c'.clusterVersion)) := by
  cases e with
  | putStore store saved =>
    obtain ⟨⟨c₂, r⟩, hp, rfl⟩ := Option.map_eq_some_iff.mp hstep
    rcases serverPutStore_eq_some hp with rfl | ⟨c₁, hput, hver⟩
    · exact ⟨h, .inl rfl⟩
    · obtain ⟨hsafe₁, hcv₁⟩ := h.putStore hk hput
      refine ⟨hsafe₁.onStoreVersionChange hver, ?_⟩
      obtain ⟨hstores, hcv | ⟨hlt, hmin⟩⟩ := onStoreVersionChange_eq_some hver
      · exact .inl (hcv.trans hcv₁)
      · -- raised to the least version of the stores, which `putStore` left as they are now
        have hget : ∀ x, c₂.getStore x = c₁.getStore x := fun x => by simp only [getStore, hstores]
        refine .inr ⟨hcv₁ ▸ hlt, ?_, fun x s v hs ht hv => ?_⟩
        · rcases minStoreVersion_mem sv _ none _ hmin with h | ⟨s, hs, ht, hv⟩
          · cases h
          · obtain ⟨x, hx⟩ := mem_getStores.mp hs
            exact ⟨x, s, (hget x).trans hx, ht, hv⟩
        · exact minStoreVersion_patchLE sv hmin s (mem_getStores.mpr ⟨x, (hget x) ▸ hs⟩) ht v hv
  | storeHeartbeat stats now =>
    cases hstep
    rcases serverStoreHeartbeat_fst (c := c) stats now with heq | hok
    · rw [heq]
      exact ⟨h, .inl rfl⟩
    · refine ⟨h.handleStoreHeartbeat hok, .inl ?_⟩
      obtain ⟨_, -, heq⟩ := handleStoreHeartbeat_eq_ok hok
      rw [heq]
      rfl
  | removeStore storeID saved =>
    cases hstep
    refine keepOnError_of (P := fun c' => c'.VersionSafe sv ∧ (c'.clusterVersion = c.clusterVersion ∨ _))
      ⟨h, .inl rfl⟩ fun c' hr => ⟨h.removeStore hk hr, .inl ?_⟩
    rcases removeStore_eq_ok hr with rfl | ⟨_, -, -, rfl⟩ <;> rfl
  | buryStore storeID force saved =>
    cases hstep
    refine keepOnError_of (P := fun c' => c'.VersionSafe sv ∧ (c'.clusterVersion = c.clusterVersion ∨ _))
      ⟨h, .inl rfl⟩ fun c' hr => ⟨h.buryStore hr, .inl ?_⟩
    rcases buryStore_eq_ok hr with rfl | ⟨_, -, -, rfl⟩ <;> rfl
  | updateStoreLabels storeID labels saved =>
    cases hstep
    refine keepOnError_of (P := fun c' => c'.VersionSafe sv ∧ (c'.clusterVersion = c.clusterVersion ∨ _))
      ⟨h, .inl rfl⟩ fun c' hr => ?_
    obtain ⟨_, -, hput⟩ := updateStoreLabels_eq_ok hr
    obtain ⟨hsafe, hcv⟩ := h.putStore hk hput
    exact ⟨hsafe, .inl hcv⟩
  | checkStores regions lowSpaceRatio saved =>
    cases hstep
    have := (checkStores_induction (fun cur => cur.VersionSafe sv ∧ cur.clusterVersion = c.clusterVersion)
      (fun cur store _ hcur => by
        obtain ⟨hsafe, hcv⟩ := hcur.1.checkStoresRound regions lowSpaceRatio saved store
        exact ⟨hsafe, hcv.trans hcur.2⟩) hk ⟨h, rfl⟩).1
    exact ⟨this.1, .inl this.2⟩

/-- Every run from a keyed cluster whose versions are safe keeps them safe. -/
theorem VersionSafe.run (hk : c.Keyed) (h : c.VersionSafe sv) {events : List StoreEvent}
    (hrun : c.run sv events = some c') : c'.VersionSafe sv := by
  induction events generalizing c with
  | nil =>
    cases hrun
    exact h
  | cons e events ih =>
    rw [run_cons] at hrun
    obtain ⟨c₁, hstep, hrest⟩ := Option.bind_eq_some_iff.mp hrun
    exact ih (step_move hk hstep).2 (h.step hk hstep).1 hrest

/-- A `PutStore` of a version whose `(Major, Minor)` is below the cluster
version's changes nothing. -/
theorem step_putStore_of_not_minorLE {store : Metapb.Store} {saved : Bool} {v : Version}
    (hv : parseVersion sv store.version = some v) (hold : ¬c.clusterVersion.MinorLE v)
    (hstep : c.step sv (.putStore store saved) = some c') : c' = c := by
  obtain ⟨⟨c₂, r⟩, hp, rfl⟩ := Option.map_eq_some_iff.mp hstep
  rcases serverPutStore_eq_some hp with rfl | ⟨c₁, hput, -⟩
  · rfl
  · obtain ⟨v', hv', hcompat, -⟩ := putStore_eq_ok hput
    rw [hv] at hv'
    cases hv'
    exact absurd (minorLE_of_isCompatible hcompat) hold

/-- From a keyed cluster whose versions are safe, over every run with go-semver:
the versions stay safe, and from every state reached, the next event never
lowers the cluster version, raises it only to a version of the stores that
are not tombstones that is least in `(Major, Minor, Patch)`, and a `PutStore`
of an older `(Major, Minor)` is refused. -/
theorem cluster_version_safe (c : StoreCluster) (hkeyed : c.Keyed) (hsafe : c.VersionSafe goSemver)
    (events : List StoreEvent) (c₁ : StoreCluster) (hrun : c.run goSemver events = some c₁) :
    c₁.VersionSafe goSemver ∧
      ∀ e c₂, c₁.step goSemver e = some c₂ →
        goSemver.lessThan c₂.clusterVersion c₁.clusterVersion = false ∧
        (c₂.clusterVersion = c₁.clusterVersion ∨
          (goSemver.lessThan c₁.clusterVersion c₂.clusterVersion = true ∧
            c₂.IsLeastVersion goSemver c₂.clusterVersion)) ∧
        ∀ store saved v, e = .putStore store saved → parseVersion goSemver store.version = some v →
          ¬c₁.clusterVersion.MinorLE v → c₂ = c₁ := by
  -- the run keeps the stores keyed and the versions safe
  have hk₁ := (run_reaches hkeyed hrun).1
  have hsafe₁ := hsafe.run hkeyed hrun
  refine ⟨hsafe₁, fun e c₂ hstep => ⟨?_, (hsafe₁.step hk₁ hstep).2, ?_⟩⟩
  · -- go-semver's `LessThan` is asymmetric
    rcases (hsafe₁.step hk₁ hstep).2 with hcv | ⟨hlt, -⟩
    · rw [hcv]
      exact goSemver_antisymm.not_lessThan_self _
    · exact goSemver_antisymm.not_lessThan_of_lessThan hlt
  · rintro store saved v rfl hv hold
    exact step_putStore_of_not_minorLE hv hold hstep

theorem versionSafe_oneStoreCluster (sv : Semver) : oneStoreCluster.VersionSafe sv := by
  intro x s hs _
  obtain ⟨rfl, rfl⟩ := getStore_oneStoreCluster hs
  exact ⟨baseVersion, rfl, .inr ⟨rfl, le_rfl⟩⟩

theorem cluster_version_safe_retire :
    oneStoreCluster.Keyed ∧ oneStoreCluster.VersionSafe goSemver ∧
      oneStoreCluster.run goSemver retireEvents = some retiredCluster ∧
      retiredCluster.VersionSafe goSemver ∧
      ∀ e c₂, retiredCluster.step goSemver e = some c₂ →
        goSemver.lessThan c₂.clusterVersion retiredCluster.clusterVersion = false ∧
        (c₂.clusterVersion = retiredCluster.clusterVersion ∨
          (goSemver.lessThan retiredCluster.clusterVersion c₂.clusterVersion = true ∧
            c₂.IsLeastVersion goSemver c₂.clusterVersion)) ∧
        ∀ store saved v, e = .putStore store saved → parseVersion goSemver store.version = some v →
          ¬retiredCluster.clusterVersion.MinorLE v → c₂ = retiredCluster := by
  have hrun : oneStoreCluster.run goSemver retireEvents = some retiredCluster := rfl
  exact ⟨keyed_oneStoreCluster, versionSafe_oneStoreCluster goSemver, hrun,
    cluster_version_safe oneStoreCluster keyed_oneStoreCluster (versionSafe_oneStoreCluster goSemver)
      retireEvents retiredCluster hrun⟩

/-- An up store with an address and a version. -/
def versionedStore (id : UInt64) (address version : String) : StoreInfo :=
  { upStore id [] with store := ⟨id, address, .up, [], version⟩ }

/-- Stores at `1.0.0-9`, `1.0.0-10` and `1.0.0-1a`, in a cluster at `1.0.0-1`. -/
def preReleaseCluster : StoreCluster :=
  ⟨(((∅ : AList fun _ : UInt64 => StoreInfo).insert 1 (versionedStore 1 "s1" "1.0.0-9")).insert 2
      (versionedStore 2 "s2" "1.0.0-10")).insert 3 (versionedStore 3 "s3" "1.0.0-1a"),
    ⟨1, 0, 0, "1", ""⟩⟩

/-- Store 1 puts itself again, unchanged. -/
def putStoreOne : StoreEvent := .putStore ⟨1, "s1", .up, [], "1.0.0-9"⟩ true

/-- The pre-release tags `9`, `10` and `1a` go round in a circle. After store 1
puts itself again, `OnStoreVersionChange` visits `9`, `1a`, `10` and keeps
each as it finds it below the last: it raises the cluster version to
`1.0.0-10`, above store 1's `1.0.0-9`. -/
theorem cluster_version_raised_above_store :
    (goSemver.preReleaseCompare "9" "10" = -1 ∧ goSemver.preReleaseCompare "10" "1a" = -1 ∧
      goSemver.preReleaseCompare "1a" "9" = -1) ∧
    (preReleaseCluster.step goSemver putStoreOne).map (·.clusterVersion) = some ⟨1, 0, 0, "10", ""⟩ ∧
    ((preReleaseCluster.step goSemver putStoreOne).bind (·.getStore 1)).map (·.store.version) = some "1.0.0-9" ∧
    goSemver.lessThan ⟨1, 0, 0, "9", ""⟩ ⟨1, 0, 0, "10", ""⟩ = true := by
  decide

end StoreCluster

end PlacementDriver.Server
