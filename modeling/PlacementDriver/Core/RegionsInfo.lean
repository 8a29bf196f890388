import PlacementDriver.Core.RegionTree
import PlacementDriver.Core.RegionMap

/-!
# `RegionsInfo`: the region cache of PD

`RegionsInfo` (in `server/core/region.go`) keeps every region PD knows in six
indexes that must stay in step: the `regionTree` of key ranges, the
`regionMap` by id, and four maps from store id to a `regionMap` of the regions
whose leader, follower (non-leader voter), learner or pending peer is on that
store.

`SetRegion` removes the region of the same id, if cached, and then calls
`AddRegion`, which puts the region's meta into the tree, removes every region
the tree reports as overlapping through `RemoveRegion(GetRegion(item.Id))`,
and puts the region into the id map and the store maps of its peers.

The store maps are `map[uint64]*regionMap`: a missing store reads as a nil
`*regionMap`, on which `Len`, `Get` and `Delete` return without effect, and
`AddRegion` creates the map on first use. `RemoveRegion(nil)` dereferences
nil and panics; `AddRegion` reaches it when an overlapping id is missing from
`regions`, so `addRegion` and `setRegion` return `none` for that panic. The
invariant proved in `RegionsInfoInvariant` shows it never happens.

Each loop of the source is a named definition (`removeFromStores`,
`removeOverlaps`, `addVoters`, `addLearners`, `addPendingPeers`), and the
lemmas at the end say what each loop does to each index.
-/

namespace PlacementDriver

open Metapb RegionMap

/-- A `map[uint64]*regionMap` from store id to the regions with a peer of one
role there. -/
abbrev StoreIndex := AList (fun _ : UInt64 => RegionMap)

namespace StoreIndex

/-- `idx[storeID].Get(id)`: a missing store reads as a nil map. -/
def get (idx : StoreIndex) (storeId id : UInt64) : Option RegionInfo :=
  (idx.lookup storeId).bind (fun rm => rm.get id)

/-- `idx[storeID].Len()`. -/
def len (idx : StoreIndex) (storeId : UInt64) : Nat :=
  ((idx.lookup storeId).map RegionMap.len).getD 0

/-- `store, ok := idx[storeID]; if !ok { store = newRegionMap(); idx[storeID] = store };
store.Put(region)`. -/
def put (idx : StoreIndex) (storeId : UInt64) (region : RegionInfo) : StoreIndex :=
  idx.insert storeId (((idx.lookup storeId).getD newRegionMap).put region)

/-- `idx[storeID].Delete(id)`: `Delete` on a nil map returns. -/
def delete (idx : StoreIndex) (storeId id : UInt64) : StoreIndex :=
  match idx.lookup storeId with
  | some rm => idx.insert storeId (rm.delete id)
  | none => idx

/-- Put a region into the maps of several stores, one after the other. -/
def putAll (idx : StoreIndex) (stores : List UInt64) (region : RegionInfo) : StoreIndex :=
  stores.foldl (fun idx s => idx.put s region) idx

/-- Delete an id from the maps of several stores, one after the other. -/
def deleteAll (idx : StoreIndex) (stores : List UInt64) (id : UInt64) : StoreIndex :=
  stores.foldl (fun idx s => idx.delete s id) idx

/-- Every store's map is a valid `regionMap`. -/
def AllValid (idx : StoreIndex) : Prop := ∀ s rm, idx.lookup s = some rm → rm.Valid

variable {idx : StoreIndex}

@[simp] theorem get_empty (s id : UInt64) : get ∅ s id = none := rfl

theorem allValid_empty : AllValid ∅ := fun _ _ h => by cases h

theorem get_put (idx : StoreIndex) (s : UInt64) (region : RegionInfo) (s' id : UInt64) :
    (idx.put s region).get s' id =
      if s' = s ∧ id = region.getID then some region else idx.get s' id := by
  unfold put get
  by_cases hs : s' = s
  · subst hs
    rw [AList.lookup_insert, Option.bind_some, RegionMap.get_put]
    cases idx.lookup s' with
    | none => simp
    | some rm => simp
  · rw [AList.lookup_insert_ne hs, if_neg (fun h => hs h.1)]

theorem allValid_put (h : AllValid idx) (s : UInt64) (region : RegionInfo) :
    AllValid (idx.put s region) := by
  intro s' rm hrm
  unfold put at hrm
  by_cases hs : s' = s
  · subst hs
    rw [AList.lookup_insert] at hrm
    rw [← Option.some.inj hrm]
    apply valid_put
    cases hl : idx.lookup s' with
    | none => exact valid_newRegionMap
    | some rm' => exact h s' rm' hl
  · rw [AList.lookup_insert_ne hs] at hrm
    exact h s' rm hrm

theorem get_delete (h : AllValid idx) (s id s' id' : UInt64) :
    (idx.delete s id).get s' id' = if s' = s ∧ id' = id then none else idx.get s' id' := by
  unfold delete
  cases hl : idx.lookup s with
  | none =>
      by_cases hc : s' = s ∧ id' = id
      · rw [if_pos hc, get, hc.1, hl]
        rfl
      · rw [if_neg hc]
  | some rm =>
      dsimp only
      unfold get
      by_cases hs : s' = s
      · subst hs
        rw [AList.lookup_insert, Option.bind_some, RegionMap.get_delete (h s' rm hl), hl,
          Option.bind_some]
        by_cases hid : id' = id
        · rw [if_pos hid, if_pos ⟨rfl, hid⟩]
        · rw [if_neg hid, if_neg (fun hc => hid hc.2)]
      · rw [AList.lookup_insert_ne hs, if_neg (fun hc => hs hc.1)]

theorem allValid_delete (h : AllValid idx) (s id : UInt64) : AllValid (idx.delete s id) := by
  intro s' rm hrm
  unfold delete at hrm
  cases hl : idx.lookup s with
  | none =>
      rw [hl] at hrm
      exact h s' rm hrm
  | some rm' =>
      rw [hl] at hrm
      dsimp only at hrm
      by_cases hs : s' = s
      · subst hs
        rw [AList.lookup_insert] at hrm
        rw [← Option.some.inj hrm]
        exact valid_delete (h s' rm' hl) id
      · rw [AList.lookup_insert_ne hs] at hrm
        exact h s' rm hrm

/-- After `putAll`, the region is in the maps of exactly the given stores, on
top of what was there. -/
theorem get_putAll (idx : StoreIndex) (stores : List UInt64) (region : RegionInfo) (s id : UInt64) :
    (idx.putAll stores region).get s id =
      if s ∈ stores ∧ id = region.getID then some region else idx.get s id := by
  induction stores generalizing idx with
  | nil => simp [putAll]
  | cons s₀ stores ih =>
      rw [putAll, List.foldl_cons, ← putAll, ih, get_put]
      by_cases hs : s ∈ stores ∧ id = region.getID
      · rw [if_pos hs, if_pos ⟨List.mem_cons_of_mem _ hs.1, hs.2⟩]
      · rw [if_neg hs]
        by_cases h0 : s = s₀ ∧ id = region.getID
        · rw [if_pos h0, if_pos ⟨h0.1 ▸ List.mem_cons_self, h0.2⟩]
        · rw [if_neg h0, if_neg]
          rintro ⟨hmem, hid⟩
          rcases List.mem_cons.mp hmem with h | h
          · exact h0 ⟨h, hid⟩
          · exact hs ⟨h, hid⟩

theorem allValid_putAll (h : AllValid idx) (stores : List UInt64) (region : RegionInfo) :
    AllValid (idx.putAll stores region) := by
  induction stores generalizing idx with
  | nil => exact h
  | cons s stores ih => exact ih (allValid_put h s region)

/-- After `deleteAll`, the id is gone from the maps of the given stores. -/
theorem get_deleteAll (h : AllValid idx) (stores : List UInt64) (id s id' : UInt64) :
    (idx.deleteAll stores id).get s id' =
      if s ∈ stores ∧ id' = id then none else idx.get s id' := by
  induction stores generalizing idx with
  | nil => simp [deleteAll]
  | cons s₀ stores ih =>
      rw [deleteAll, List.foldl_cons, ← deleteAll, ih (allValid_delete h s₀ id), get_delete h]
      by_cases hs : s ∈ stores ∧ id' = id
      · rw [if_pos hs, if_pos ⟨List.mem_cons_of_mem _ hs.1, hs.2⟩]
      · rw [if_neg hs]
        by_cases h0 : s = s₀ ∧ id' = id
        · rw [if_pos h0, if_pos ⟨h0.1 ▸ List.mem_cons_self, h0.2⟩]
        · rw [if_neg h0, if_neg]
          rintro ⟨hmem, hid⟩
          rcases List.mem_cons.mp hmem with h | h
          · exact h0 ⟨h, hid⟩
          · exact hs ⟨h, hid⟩

theorem allValid_deleteAll (h : AllValid idx) (stores : List UInt64) (id : UInt64) :
    AllValid (idx.deleteAll stores id) := by
  induction stores generalizing idx with
  | nil => exact h
  | cons s stores ih => exact ih (allValid_delete h s id)

end StoreIndex

/-- `RegionsInfo`. -/
structure RegionsInfo where
  tree : RegionTree
  regions : RegionMap
  leaders : StoreIndex
  followers : StoreIndex
  learners : StoreIndex
  pendingPeers : StoreIndex

namespace RegionsInfo

/-- `NewRegionsInfo`. -/
def newRegionsInfo : RegionsInfo := ⟨RegionTree.newRegionTree, newRegionMap, ∅, ∅, ∅, ∅⟩

/-- `GetRegion`. -/
def getRegion (r : RegionsInfo) (regionID : UInt64) : Option RegionInfo := r.regions.get regionID

/-- The body of `RemoveRegion`'s loop over the peers: delete the region from
the four maps of one store. -/
def removeFromStores (r : RegionsInfo) (storeId id : UInt64) : RegionsInfo :=
  { r with
    leaders := r.leaders.delete storeId id
    followers := r.followers.delete storeId id
    learners := r.learners.delete storeId id
    pendingPeers := r.pendingPeers.delete storeId id }

/-- `RemoveRegion`: remove from the tree and the id map, then from the store
maps of every peer. -/
def removeRegion (r : RegionsInfo) (region : RegionInfo) : RegionsInfo :=
  let r := { r with
    tree := r.tree.remove region.regionMeta
    regions := r.regions.delete region.getID }
  region.regionMeta.peers.foldl (fun r peer => r.removeFromStores peer.storeId region.getID) r

/-- The loop of `AddRegion` over the overlaps:
`r.RemoveRegion(r.GetRegion(item.Id))`, which panics when the id is not cached. -/
def removeOverlaps (r : RegionsInfo) (overlaps : List Region) : Option RegionsInfo :=
  overlaps.foldlM (fun r item => (r.getRegion item.id).map r.removeRegion) r

/-- The loop of `AddRegion` over the voters: the peer whose id is the leader's
goes to `leaders`, the others to `followers`. -/
def addVoters (r : RegionsInfo) (region : RegionInfo) : RegionsInfo :=
  region.getVoters.foldl (fun r peer =>
    if peer.id = region.leaderId then { r with leaders := r.leaders.put peer.storeId region }
    else { r with followers := r.followers.put peer.storeId region }) r

/-- The loop of `AddRegion` over the learners. -/
def addLearners (r : RegionsInfo) (region : RegionInfo) : RegionsInfo :=
  region.getLearners.foldl (fun r peer => { r with learners := r.learners.put peer.storeId region }) r

/-- The loop of `AddRegion` over the pending peers. -/
def addPendingPeers (r : RegionsInfo) (region : RegionInfo) : RegionsInfo :=
  region.pendingPeers.foldl
    (fun r peer => { r with pendingPeers := r.pendingPeers.put peer.storeId region }) r

/-- `AddRegion`: returns the overlapping metas the tree removed, or `none` for
the panic of `RemoveRegion(nil)`. -/
def addRegion (r : RegionsInfo) (region : RegionInfo) : Option (RegionsInfo × List Region) :=
  let updated := r.tree.update region.regionMeta
  match removeOverlaps { r with tree := updated.1 } updated.2 with
  | none => none
  | some r =>
      let r := { r with regions := r.regions.put region }
      some (addPendingPeers (addLearners (addVoters r region) region) region, updated.2)

/-- `SetRegion`. -/
def setRegion (r : RegionsInfo) (region : RegionInfo) : Option (RegionsInfo × List Region) :=
  match r.getRegion region.getID with
  | some origin => (r.removeRegion origin).addRegion region
  | none => r.addRegion region

/-- `SearchRegion`. -/
def searchRegion (r : RegionsInfo) (regionKey : Key) : Option RegionInfo :=
  (r.tree.search regionKey).bind (fun metaRegion => r.getRegion metaRegion.id)

/-- `SearchPrevRegion`. -/
def searchPrevRegion (r : RegionsInfo) (regionKey : Key) : Option RegionInfo :=
  (r.tree.searchPrev regionKey).bind (fun metaRegion => r.getRegion metaRegion.id)

/-- `GetAdjacentRegions`: the tree's neighbours, kept only when they touch the
region's range. -/
def getAdjacentRegions (r : RegionsInfo) (region : RegionInfo) :
    Option RegionInfo × Option RegionInfo :=
  let adjacent := r.tree.getAdjacentRegions region.regionMeta
  let prev := match adjacent.1 with
    | some metaPrev =>
        if metaPrev.endKey = region.regionMeta.startKey then r.getRegion metaPrev.id else none
    | none => none
  let next := match adjacent.2 with
    | some metaNext =>
        if region.regionMeta.endKey = metaNext.startKey then r.getRegion metaNext.id else none
    | none => none
  (prev, next)

/-- `GetRegionCount`. -/
def getRegionCount (r : RegionsInfo) : Nat := r.regions.len

/-- `GetStoreLeaderCount`. -/
def getStoreLeaderCount (r : RegionsInfo) (storeID : UInt64) : Nat := r.leaders.len storeID

/-- `GetStoreFollowerCount`. -/
def getStoreFollowerCount (r : RegionsInfo) (storeID : UInt64) : Nat := r.followers.len storeID

/-- `GetStoreLearnerCount`. -/
def getStoreLearnerCount (r : RegionsInfo) (storeID : UInt64) : Nat := r.learners.len storeID

/-- `GetStorePendingPeerCount`. -/
def getStorePendingPeerCount (r : RegionsInfo) (storeID : UInt64) : Nat :=
  r.pendingPeers.len storeID

/-- `GetStoreRegionCount`. -/
def getStoreRegionCount (r : RegionsInfo) (storeID : UInt64) : Nat :=
  r.getStoreLeaderCount storeID + r.getStoreFollowerCount storeID + r.getStoreLearnerCount storeID

/-- `GetLeader`. -/
def getLeader (r : RegionsInfo) (storeID regionID : UInt64) : Option RegionInfo :=
  r.leaders.get storeID regionID

/-- `GetFollower`. -/
def getFollower (r : RegionsInfo) (storeID regionID : UInt64) : Option RegionInfo :=
  r.followers.get storeID regionID

/-- `ScanRange(startKey, limit)`: the regions of the tree from `startKey` on,
until `limit` are collected; an id the map misses gives a nil region. -/
def scanRange (r : RegionsInfo) (startKey : Key) (limit : Nat) : List (Option RegionInfo) :=
  r.tree.scanRange startKey (fun res metaRegion =>
    let res := res ++ [r.getRegion metaRegion.id]
    (res, decide (res.length < limit))) []

/-! ## What each loop does to each index -/

open StoreIndex

@[simp] theorem getRegion_newRegionsInfo (id : UInt64) : newRegionsInfo.getRegion id = none := rfl

theorem foldl_removeFromStores (r : RegionsInfo) (peers : List Peer) (id : UInt64) :
    peers.foldl (fun r peer => r.removeFromStores peer.storeId id) r =
      { r with
        leaders := r.leaders.deleteAll (peers.map Peer.storeId) id
        followers := r.followers.deleteAll (peers.map Peer.storeId) id
        learners := r.learners.deleteAll (peers.map Peer.storeId) id
        pendingPeers := r.pendingPeers.deleteAll (peers.map Peer.storeId) id } := by
  induction peers generalizing r with
  | nil => rfl
  | cons p peers ih => exact ih (r.removeFromStores p.storeId id)

/-- `RemoveRegion`, one index at a time. -/
theorem removeRegion_eq (r : RegionsInfo) (region : RegionInfo) :
    r.removeRegion region =
      { tree := r.tree.remove region.regionMeta
        regions := r.regions.delete region.getID
        leaders := r.leaders.deleteAll (region.regionMeta.peers.map Peer.storeId) region.getID
        followers := r.followers.deleteAll (region.regionMeta.peers.map Peer.storeId) region.getID
        learners := r.learners.deleteAll (region.regionMeta.peers.map Peer.storeId) region.getID
        pendingPeers :=
          r.pendingPeers.deleteAll (region.regionMeta.peers.map Peer.storeId) region.getID } := by
  rw [removeRegion, foldl_removeFromStores]

/-- `addVoters`, one index at a time: the leader's store gets the region in
`leaders`, the other voters' stores in `followers`. -/
theorem addVoters_eq (r : RegionsInfo) (region : RegionInfo) :
    r.addVoters region =
      { r with
        leaders := r.leaders.putAll
          ((region.getVoters.filter (fun p => p.id = region.leaderId)).map Peer.storeId) region
        followers := r.followers.putAll
          ((region.getVoters.filter (fun p => ¬ p.id = region.leaderId)).map Peer.storeId)
          region } := by
  unfold addVoters
  induction region.getVoters generalizing r with
  | nil => rfl
  | cons p ps ih =>
      rw [List.foldl_cons, ih]
      by_cases hp : p.id = region.leaderId
      · simp [hp, putAll]
      · simp [hp, putAll]

theorem addLearners_eq (r : RegionsInfo) (region : RegionInfo) :
    r.addLearners region =
      { r with learners := r.learners.putAll (region.getLearners.map Peer.storeId) region } := by
  unfold addLearners
  induction region.getLearners generalizing r with
  | nil => rfl
  | cons p ps ih => exact ih _

theorem addPendingPeers_eq (r : RegionsInfo) (region : RegionInfo) :
    r.addPendingPeers region =
      { r with pendingPeers :=
          r.pendingPeers.putAll (region.pendingPeers.map Peer.storeId) region } := by
  unfold addPendingPeers
  induction region.pendingPeers generalizing r with
  | nil => rfl
  | cons p ps ih => exact ih _

end RegionsInfo

end PlacementDriver
