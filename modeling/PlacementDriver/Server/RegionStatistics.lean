import PlacementDriver.Schedule.Cluster
import PlacementDriver.Verified.BitFlags
import PlacementDriver.Verified.DenseIndex
import PlacementDriver.Verified.GoMap
import PlacementDriver.Verified.PairRefinement

/-!
# Region statistics

`server/region_statistics.go`. On every region heartbeat `clusterInfo` hands
the region and its stores to two collectors, and on every region an update
overlaps it clears that region from both.

`regionStatistics` files each region under the health problems it has: too
few or too many peers, down, pending or learner peers, a peer on an offline
store, a store in another namespace. `Observe` marks each type the region has
and remembers their bits in `index`; the types of the last observation the
region no longer has are then deleted by walking the bits of
`oldIndex &^ peerTypeIndex`.

The loop of `Observe` over the stores ends at the first store in another
namespace, and the offline test of a store is in the same loop, so an offline
store after that one is never looked at: whether a region is filed under
`offlinePeer` depends on the order of its stores (`offline_peer_depends_on_order`).

`labelLevelStatistics` counts the regions at each isolation level: the least
`i + 1` for which no two of the region's stores share their values of the
first `i + 1` location labels. `getRegionLabelIsolationLevel` finds it by
refining a queue of groups of stores, one label a level.

A Go `map` is an `AList` here, its entries standing for an iteration order
the language leaves open; `getRegionLabelIsolationLevel` only asks whether a
queue is empty, which no order changes.

## Main results

* `lookup_stats_run`: along any run of observations and clears, a region is
  filed under a type exactly when its last observation, not cleared since,
  had the type, and the region filed is the one last observed.
* `getRegionLabelIsolationLevel_eq`: the queue refinement computes the
  isolation level of its definition.
* `countersAgree_run`: along any run, the counter of each level is the number
  of regions at that level.
* `offline_peer_depends_on_order`: the stores of one region, in two orders,
  file it under `offlinePeer` in one and not in the other.
-/

namespace PlacementDriver.Server

open Metapb Verified BitFlags GoMap DenseIndex PairRefinement

open scoped List

/-! ## Region statistics -/

/-- `regionStatisticType`: each type is one bit of a `uint32`. -/
inductive RegionStatisticType
  | missPeer
  | extraPeer
  | downPeer
  | pendingPeer
  | offlinePeer
  | incorrectNamespace
  | learnerPeer
  deriving DecidableEq, Repr

namespace RegionStatisticType

/-- The position of the type's bit: its `iota`. -/
def index : RegionStatisticType → Nat
  | missPeer => 0
  | extraPeer => 1
  | downPeer => 2
  | pendingPeer => 3
  | offlinePeer => 4
  | incorrectNamespace => 5
  | learnerPeer => 6

/-- `1 << iota`. -/
def bit (t : RegionStatisticType) : UInt32 := 1 <<< t.index.toUInt32

/-- The types by increasing bit, the order in which `deleteEntry` meets them. -/
def all : List RegionStatisticType :=
  [missPeer, extraPeer, downPeer, pendingPeer, offlinePeer, incorrectNamespace, learnerPeer]

theorem toNat_bit (t : RegionStatisticType) : t.bit.toNat = 2 ^ t.index := by
  cases t <;> rfl

theorem index_lt (t : RegionStatisticType) : t.index < 32 := by
  cases t <;> decide

theorem hasFlag_bit (t t' : RegionStatisticType) : hasFlag t.bit t'.bit = decide (t = t') := by
  cases t <;> cases t' <;> rfl

theorem mem_all (t : RegionStatisticType) : t ∈ all := by
  cases t <;> simp [all]

/-- `mask | t` holds `t'` when `mask` does or `t'` is `t`. -/
theorem hasFlag_or_bit (mask : UInt32) (t t' : RegionStatisticType) :
    hasFlag (mask ||| t.bit) t'.bit = (hasFlag mask t'.bit || decide (t = t')) := by
  rw [hasFlag_or (toNat_bit t'), hasFlag_bit]

theorem hasFlag_andNot_bit (a b : UInt32) (t : RegionStatisticType) :
    hasFlag (a &&& ~~~b) t.bit = (hasFlag a t.bit && !hasFlag b t.bit) :=
  hasFlag_andNot (toNat_bit t) (index_lt t) a b

end RegionStatisticType

open RegionStatisticType

/-- `regionStatistics`. Of the options it reads only `GetMaxReplicas`, the
replica count of a namespace. -/
structure RegionStatistics where
  getMaxReplicas : String → Int
  classifier : Classifier
  stats : RegionStatisticType → AList (fun _ : UInt64 => RegionInfo)
  index : AList (fun _ : UInt64 => UInt32)

/-- `newRegionStatistics(opt, classifier)`: an empty map for every type. -/
def newRegionStatistics (getMaxReplicas : String → Int) (classifier : Classifier) : RegionStatistics :=
  ⟨getMaxReplicas, classifier, fun _ => ∅, ∅⟩

namespace RegionStatistics

variable (r : RegionStatistics)

/-- `r.stats[typ][region.GetID()] = region`. -/
def setStat (typ : RegionStatisticType) (region : RegionInfo) : RegionStatistics :=
  { r with stats := Function.update r.stats typ ((r.stats typ).insert region.getID region) }

/-- `delete(r.stats[typ], regionID)`. -/
def deleteStat (typ : RegionStatisticType) (regionID : UInt64) : RegionStatistics :=
  { r with stats := Function.update r.stats typ ((r.stats typ).erase regionID) }

/-- `deleteEntry(deleteIndex, regionID)`: the loop over `typ = 1, 2, 4, …`
while `typ <= deleteIndex`, which meets the types' bits in order. No mask has
a bit above theirs, so the loop never reaches the overflow past `1 << 31`. -/
def deleteEntry (deleteIndex : UInt32) (regionID : UInt64) : RegionStatistics :=
  all.foldl (fun r typ =>
    if typ.bit ≤ deleteIndex ∧ hasFlag deleteIndex typ.bit = true then r.deleteStat typ regionID else r) r

end RegionStatistics

/-- The two writes `Observe` makes for a type the region has:
`r.stats[typ][regionID] = region` and `peerTypeIndex |= typ`. -/
def mark (typ : RegionStatisticType) (region : RegionInfo) (acc : RegionStatistics × UInt32) :
    RegionStatistics × UInt32 :=
  (acc.1.setStat typ region, acc.2 ||| typ.bit)

/-- The loop of `Observe` over the stores: an offline store with a peer of the
region marks `offlinePeer`; the first store in another namespace than the
region's marks `incorrectNamespace` and ends the loop. -/
def observeStores (classifier : Classifier) (region : RegionInfo) (regionNamespace : String) :
    List StoreInfo → RegionStatistics × UInt32 → RegionStatistics × UInt32
  | [], acc => acc
  | store :: stores, acc =>
    let acc := if store.isOffline && (region.getStorePeer store.getId).isSome then mark .offlinePeer region acc
      else acc
    if classifier.getStoreNamespace store == regionNamespace then
      observeStores classifier region regionNamespace stores acc
    else mark .incorrectNamespace region acc

namespace RegionStatistics

variable (r : RegionStatistics)

/-- The marks of `Observe` before the loop over the stores. -/
def markRegion (region : RegionInfo) (regionNamespace : String) : RegionStatistics × UInt32 :=
  let acc : RegionStatistics × UInt32 := (r, 0)
  let acc :=
    if (region.getPeers.length : Int) < r.getMaxReplicas regionNamespace then mark .missPeer region acc
    else if (region.getPeers.length : Int) > r.getMaxReplicas regionNamespace then mark .extraPeer region acc
    else acc
  let acc := if region.downPeers.length > 0 then mark .downPeer region acc else acc
  let acc := if region.pendingPeers.length > 0 then mark .pendingPeer region acc else acc
  if region.getLearners.length > 0 then mark .learnerPeer region acc else acc

/-- `Observe(region, stores)`. -/
def observe (region : RegionInfo) (stores : List StoreInfo) : RegionStatistics :=
  let regionID := region.getID
  let regionNamespace := r.classifier.getRegionNamespace region
  let (r', peerTypeIndex) :=
    observeStores r.classifier region regionNamespace stores (r.markRegion region regionNamespace)
  let deleteIndex := match r'.index.lookup regionID with
    | some oldIndex => oldIndex &&& ~~~peerTypeIndex
    | none => 0
  let r' := r'.deleteEntry deleteIndex regionID
  { r' with index := r'.index.insert regionID peerTypeIndex }

/-- `clearDefunctRegion(regionID)`: the region's entries go; its `index`
entry stays. -/
def clearDefunctRegion (regionID : UInt64) : RegionStatistics :=
  match r.index.lookup regionID with
  | some oldIndex => r.deleteEntry oldIndex regionID
  | none => r

end RegionStatistics

/-! ## What `Observe` and `clearDefunctRegion` write -/

namespace RegionStatistics

variable {r : RegionStatistics}

@[simp] theorem stats_setStat (typ : RegionStatisticType) (region : RegionInfo) (t : RegionStatisticType) :
    (r.setStat typ region).stats t = if t = typ then (r.stats typ).insert region.getID region else r.stats t := by
  simp only [setStat, Function.update_apply]

@[simp] theorem stats_deleteStat (typ : RegionStatisticType) (regionID : UInt64) (t : RegionStatisticType) :
    (r.deleteStat typ regionID).stats t = if t = typ then (r.stats typ).erase regionID else r.stats t := by
  simp only [deleteStat, Function.update_apply]

/-- The walk of `deleteEntry` over any list of types: each type met whose bit
is in the mask loses the region, the rest of the state stays. -/
theorem foldl_deleteStat (d : UInt32) (regionID : UInt64) (types : List RegionStatisticType) :
    let r' := types.foldl (fun r typ =>
      if typ.bit ≤ d ∧ hasFlag d typ.bit = true then r.deleteStat typ regionID else r) r
    (∀ t id, (r'.stats t).lookup id =
        if t ∈ types ∧ id = regionID ∧ hasFlag d t.bit = true then none else (r.stats t).lookup id) ∧
      r'.index = r.index ∧ r'.getMaxReplicas = r.getMaxReplicas ∧ r'.classifier = r.classifier := by
  induction types generalizing r with
  | nil => simp
  | cons typ types ih =>
    obtain ⟨hstats, hindex, hmax, hclass⟩ := ih (r := if typ.bit ≤ d ∧ hasFlag d typ.bit = true then
      r.deleteStat typ regionID else r)
    -- the guard `typ <= deleteIndex` is implied by the test of the bit
    have hguard : (typ.bit ≤ d ∧ hasFlag d typ.bit = true) ↔ hasFlag d typ.bit = true :=
      ⟨And.right, fun h => ⟨le_of_hasFlag (toNat_bit typ) h, h⟩⟩
    rw [List.foldl_cons]
    refine ⟨fun t id => ?_, ?_, ?_, ?_⟩
    · rw [hstats]
      by_cases hd : hasFlag d typ.bit = true
      · rw [if_pos (hguard.mpr hd), stats_deleteStat]
        by_cases ht : t = typ
        · subst ht
          by_cases hid : id = regionID
          · subst hid
            simp [hd, AList.lookup_erase]
          · simp [hid, AList.lookup_erase_ne hid]
        · simp [ht]
      · rw [if_neg (mt hguard.mp hd)]
        by_cases ht : t = typ
        · subst ht
          simp [hd]
        · simp [ht]
    · rw [hindex]
      split <;> rfl
    · rw [hmax]
      split <;> rfl
    · rw [hclass]
      split <;> rfl

theorem lookup_stats_deleteEntry (d : UInt32) (regionID : UInt64) (t : RegionStatisticType) (id : UInt64) :
    ((r.deleteEntry d regionID).stats t).lookup id =
      if id = regionID ∧ hasFlag d t.bit = true then none else (r.stats t).lookup id := by
  rw [deleteEntry, (foldl_deleteStat d regionID all).1]
  simp [mem_all]

@[simp] theorem index_deleteEntry (d : UInt32) (regionID : UInt64) : (r.deleteEntry d regionID).index = r.index :=
  (foldl_deleteStat d regionID all).2.1

@[simp] theorem getMaxReplicas_deleteEntry (d : UInt32) (regionID : UInt64) :
    (r.deleteEntry d regionID).getMaxReplicas = r.getMaxReplicas :=
  (foldl_deleteStat d regionID all).2.2.1

@[simp] theorem classifier_deleteEntry (d : UInt32) (regionID : UInt64) :
    (r.deleteEntry d regionID).classifier = r.classifier :=
  (foldl_deleteStat d regionID all).2.2.2

end RegionStatistics

/-- What the marks so far have written over `r`: the region under every type
whose bit is in the mask, and nothing else. -/
structure Marked (r : RegionStatistics) (region : RegionInfo) (acc : RegionStatistics × UInt32) : Prop where
  stats : ∀ t, acc.1.stats t = if hasFlag acc.2 t.bit then (r.stats t).insert region.getID region else r.stats t
  index : acc.1.index = r.index
  getMaxReplicas : acc.1.getMaxReplicas = r.getMaxReplicas
  classifier : acc.1.classifier = r.classifier

namespace Marked

variable {r : RegionStatistics} {region : RegionInfo}

theorem init : Marked r region (r, 0) :=
  ⟨fun t => by simp, rfl, rfl, rfl⟩

theorem mark {acc : RegionStatistics × UInt32} (h : Marked r region acc) (typ : RegionStatisticType) :
    Marked r region (Server.mark typ region acc) := by
  refine ⟨fun t => ?_, h.index, h.getMaxReplicas, h.classifier⟩
  simp only [Server.mark, RegionStatistics.stats_setStat, hasFlag_or_bit, h.stats]
  by_cases ht : t = typ
  · subst ht
    -- a second write of the region under a type leaves the one entry
    cases hasFlag acc.2 t.bit <;> simp [AList.insert_insert]
  · simp [ht, Ne.symm ht]

theorem markIf {acc : RegionStatistics × UInt32} (h : Marked r region acc) (c : Prop) [Decidable c]
    (typ : RegionStatisticType) : Marked r region (if c then Server.mark typ region acc else acc) := by
  split
  · exact h.mark typ
  · exact h

theorem markRegion (regionNamespace : String) : Marked r region (r.markRegion region regionNamespace) := by
  simp only [RegionStatistics.markRegion]
  refine ((Marked.markIf ?_ _ _).markIf _ _).markIf _ _
  -- the replica count marks one of two types, or none
  split
  · exact init.mark _
  · exact init.markIf _ _

theorem observeStores {acc : RegionStatistics × UInt32} (h : Marked r region acc) (classifier : Classifier)
    (regionNamespace : String) (stores : List StoreInfo) :
    Marked r region (Server.observeStores classifier region regionNamespace stores acc) := by
  induction stores generalizing acc with
  | nil => exact h
  | cons store stores ih =>
    simp only [Server.observeStores]
    split
    · exact ih (h.markIf _ _)
    · exact (h.markIf _ _).mark _

end Marked

/-- Whether the loop of `Observe` meets an offline store that holds a peer of
the region: among the stores up to and including the first one in another
namespace. -/
def offlineBeforeMismatch (classifier : Classifier) (region : RegionInfo) (regionNamespace : String) :
    List StoreInfo → Bool
  | [] => false
  | store :: stores => (store.isOffline && (region.getStorePeer store.getId).isSome) ||
      (classifier.getStoreNamespace store == regionNamespace &&
        offlineBeforeMismatch classifier region regionNamespace stores)

/-- The types `Observe` files a region under, as the code tests them: its peer
count against its namespace's replica count, its down, pending and learner
peers, and the stores the loop meets. -/
def observedType (getMaxReplicas : String → Int) (classifier : Classifier) (region : RegionInfo)
    (stores : List StoreInfo) : RegionStatisticType → Bool
  | .missPeer => decide ((region.getPeers.length : Int) < getMaxReplicas (classifier.getRegionNamespace region))
  | .extraPeer => decide ((region.getPeers.length : Int) > getMaxReplicas (classifier.getRegionNamespace region))
  | .downPeer => decide (region.downPeers.length > 0)
  | .pendingPeer => decide (region.pendingPeers.length > 0)
  | .offlinePeer => offlineBeforeMismatch classifier region (classifier.getRegionNamespace region) stores
  | .incorrectNamespace => stores.any fun store =>
      classifier.getStoreNamespace store != classifier.getRegionNamespace region
  | .learnerPeer => decide (region.getLearners.length > 0)

/-- A mark under a test adds the type's bit when the test holds. -/
theorem hasFlag_markIf (c : Prop) [Decidable c] (typ : RegionStatisticType) (region : RegionInfo)
    (acc : RegionStatistics × UInt32) (t : RegionStatisticType) :
    hasFlag (if c then mark typ region acc else acc).2 t.bit = (hasFlag acc.2 t.bit || decide (t = typ) && decide c) := by
  by_cases hc : c
  · simp [hc, mark, hasFlag_or_bit, eq_comm]
  · simp [hc]

/-- The bits the loop over the stores adds: `offlinePeer` when it meets an
offline store with a peer, `incorrectNamespace` when some store is in another
namespace. -/
theorem hasFlag_observeStores (classifier : Classifier) (region : RegionInfo) (regionNamespace : String)
    (stores : List StoreInfo) (acc : RegionStatistics × UInt32) (t : RegionStatisticType) :
    hasFlag (observeStores classifier region regionNamespace stores acc).2 t.bit =
      (hasFlag acc.2 t.bit ||
        decide (t = .offlinePeer) && offlineBeforeMismatch classifier region regionNamespace stores ||
        decide (t = .incorrectNamespace) &&
          stores.any fun store => classifier.getStoreNamespace store != regionNamespace) := by
  induction stores generalizing acc with
  | nil => simp [observeStores, offlineBeforeMismatch]
  | cons store stores ih =>
    simp only [observeStores]
    split
    · next hns =>
      -- a store in the region's namespace: the loop goes on
      have hsame : classifier.getStoreNamespace store = regionNamespace := beq_iff_eq.mp hns
      rw [ih, hasFlag_markIf]
      simp only [offlineBeforeMismatch, List.any_cons, hsame, bne_self_eq_false, beq_self_eq_true, Bool.true_and,
        Bool.false_or]
      cases hasFlag acc.2 t.bit <;> cases decide (t = .offlinePeer) <;> simp
    · next hns =>
      -- the first store in another namespace: the loop ends here
      have hbeq : (classifier.getStoreNamespace store == regionNamespace) = false := by simpa using hns
      rw [mark, hasFlag_or_bit, hasFlag_markIf]
      simp only [@eq_comm _ incorrectNamespace t, offlineBeforeMismatch, List.any_cons, bne, hbeq, Bool.false_and, Bool.or_false, Bool.not_false,
        Bool.true_or, Bool.and_true, Bool.decide_eq_true]

/-- The bits `Observe` computes are the types `observedType` gives. -/
theorem hasFlag_peerTypeIndex (r : RegionStatistics) (region : RegionInfo) (stores : List StoreInfo)
    (t : RegionStatisticType) :
    hasFlag (observeStores r.classifier region (r.classifier.getRegionNamespace region) stores
        (r.markRegion region (r.classifier.getRegionNamespace region))).2 t.bit =
      observedType r.getMaxReplicas r.classifier region stores t := by
  rw [hasFlag_observeStores]
  simp only [RegionStatistics.markRegion, hasFlag_markIf]
  split_ifs <;> cases t <;> simp_all [observedType, mark, hasFlag_bit]
  -- left: a region with fewer peers than replicas is not marked `extraPeer`
  omega


/-- The region an observation `(region, stores)` files under `t`: the region
itself when it has the type. -/
def filedRegion (getMaxReplicas : String → Int) (classifier : Classifier) (t : RegionStatisticType)
    (o : RegionInfo × List StoreInfo) : Option RegionInfo :=
  if observedType getMaxReplicas classifier o.1 o.2 t then some o.1 else none

namespace RegionStatistics

variable {r : RegionStatistics}

/-- Every entry of a type's map has the type's bit in the region's `index`:
what lets `Observe` and `clearDefunctRegion` find the entries to delete. -/
def Indexed (r : RegionStatistics) : Prop :=
  ∀ t id, ((r.stats t).lookup id).isSome → ∃ idx, r.index.lookup id = some idx ∧ hasFlag idx t.bit = true

theorem indexed_newRegionStatistics (getMaxReplicas : String → Int) (classifier : Classifier) :
    (newRegionStatistics getMaxReplicas classifier).Indexed := by
  intro t id h
  simp [newRegionStatistics] at h

/-- `Observe` with its `let`s named: the marks, then the deletion of the old
types the region lost, then the new `index` entry. -/
theorem observe_eq (region : RegionInfo) (stores : List StoreInfo) :
    r.observe region stores =
      let acc := observeStores r.classifier region (r.classifier.getRegionNamespace region) stores
        (r.markRegion region (r.classifier.getRegionNamespace region))
      let deleteIndex := match acc.1.index.lookup region.getID with
        | some oldIndex => oldIndex &&& ~~~acc.2
        | none => 0
      { acc.1.deleteEntry deleteIndex region.getID with
        index := (acc.1.deleteEntry deleteIndex region.getID).index.insert region.getID acc.2 } :=
  rfl


section Observe

variable (region : RegionInfo) (stores : List StoreInfo)

/-- The marks and bits of `Observe` before its deletions. -/
private abbrev observeAcc (r : RegionStatistics) : RegionStatistics × UInt32 :=
  observeStores r.classifier region (r.classifier.getRegionNamespace region) stores
    (r.markRegion region (r.classifier.getRegionNamespace region))

private theorem marked_observeAcc : Marked r region (observeAcc region stores r) :=
  (Marked.markRegion _).observeStores _ _ _

@[simp] theorem getMaxReplicas_observe : (r.observe region stores).getMaxReplicas = r.getMaxReplicas := by
  rw [observe_eq]
  exact (getMaxReplicas_deleteEntry _ _).trans (marked_observeAcc region stores).getMaxReplicas

@[simp] theorem classifier_observe : (r.observe region stores).classifier = r.classifier := by
  rw [observe_eq]
  exact (classifier_deleteEntry _ _).trans (marked_observeAcc region stores).classifier

theorem index_observe :
    (r.observe region stores).index = r.index.insert region.getID (observeAcc region stores r).2 := by
  rw [observe_eq]
  simp only [index_deleteEntry, (marked_observeAcc region stores).index]

/-- After `Observe` the region is filed under exactly the types it has now;
every other region's entries stay. A type the region had at its last
observation and has lost is in `oldIndex &^ peerTypeIndex`, so its entry goes. -/
theorem Indexed.lookup_stats_observe (h : r.Indexed) (t : RegionStatisticType) (id : UInt64) :
    ((r.observe region stores).stats t).lookup id =
      if id = region.getID then filedRegion r.getMaxReplicas r.classifier t (region, stores)
      else (r.stats t).lookup id := by
  have hm := marked_observeAcc (r := r) region stores
  have hbits : hasFlag (observeAcc region stores r).2 t.bit =
      observedType r.getMaxReplicas r.classifier region stores t :=
    hasFlag_peerTypeIndex r region stores t
  rw [observe_eq]
  simp only [lookup_stats_deleteEntry, hm.stats t, hm.index]
  by_cases hid : id = region.getID
  · subst hid
    simp only [filedRegion, ← hbits, if_true, true_and]
    cases hty : hasFlag (observeAcc region stores r).2 t.bit
    · -- a type the region no longer has: an entry left from before is in the old index
      cases hold : (r.stats t).lookup region.getID with
      | none => simp [hold]
      | some x =>
        obtain ⟨idx, hidx, hbit⟩ := h t region.getID (by simp [hold])
        simp [hidx, hasFlag_andNot_bit, hbit, hty]
    · -- a type the region has: the deletion skips it and the entry is the new one
      cases hidx : r.index.lookup region.getID <;> simp [hasFlag_andNot_bit, hty]
  · simp only [hid, false_and, if_false]
    split <;> simp [AList.lookup_insert_ne hid]

theorem Indexed.observe (h : r.Indexed) : (r.observe region stores).Indexed := by
  intro t id hsome
  rw [h.lookup_stats_observe region stores] at hsome
  rw [index_observe]
  by_cases hid : id = region.getID
  · subst hid
    have hty : observedType r.getMaxReplicas r.classifier region stores t = true := by
      simpa [filedRegion] using hsome
    exact ⟨_, AList.lookup_insert _, (hasFlag_peerTypeIndex r region stores t).trans hty⟩
  · rw [if_neg hid] at hsome
    rw [AList.lookup_insert_ne hid]
    exact h t id hsome

end Observe

section Clear

variable (regionID : UInt64)

@[simp] theorem getMaxReplicas_clearDefunctRegion :
    (r.clearDefunctRegion regionID).getMaxReplicas = r.getMaxReplicas := by
  unfold clearDefunctRegion
  split <;> simp

@[simp] theorem classifier_clearDefunctRegion : (r.clearDefunctRegion regionID).classifier = r.classifier := by
  unfold clearDefunctRegion
  split <;> simp

@[simp] theorem index_clearDefunctRegion : (r.clearDefunctRegion regionID).index = r.index := by
  unfold clearDefunctRegion
  split <;> simp

/-- `clearDefunctRegion` takes the region out of every type's map: each of its
entries has its bit in `oldIndex`. -/
theorem Indexed.lookup_stats_clearDefunctRegion (h : r.Indexed) (t : RegionStatisticType) (id : UInt64) :
    ((r.clearDefunctRegion regionID).stats t).lookup id = if id = regionID then none else (r.stats t).lookup id := by
  by_cases hid : id = regionID
  · subst hid
    rw [if_pos rfl]
    cases hold : (r.stats t).lookup id with
    | none =>
      unfold clearDefunctRegion
      split <;> simp [lookup_stats_deleteEntry, hold]
    | some x =>
      obtain ⟨idx, hidx, hbit⟩ := h t id (by simp [hold])
      simp [clearDefunctRegion, hidx, lookup_stats_deleteEntry, hbit]
  · rw [if_neg hid]
    unfold clearDefunctRegion
    split <;> simp [lookup_stats_deleteEntry, hid]

theorem Indexed.clearDefunctRegion (h : r.Indexed) : (r.clearDefunctRegion regionID).Indexed := by
  intro t id hsome
  rw [h.lookup_stats_clearDefunctRegion regionID] at hsome
  rw [index_clearDefunctRegion]
  split at hsome
  · simp at hsome
  · exact h t id hsome

end Clear

end RegionStatistics


/-! ## Runs of observations and clears -/

/-- The calls `clusterInfo` makes on `regionStatistics`: `Observe` on a
heartbeat, `clearDefunctRegion` for each region the heartbeat's region
overlaps. -/
inductive StatsEvent
  | observe (region : RegionInfo) (stores : List StoreInfo)
  | clearDefunctRegion (regionID : UInt64)
  deriving Repr

namespace RegionStatistics

/-- One call. -/
def apply (r : RegionStatistics) : StatsEvent → RegionStatistics
  | .observe region stores => r.observe region stores
  | .clearDefunctRegion regionID => r.clearDefunctRegion regionID

/-- The statistics after a sequence of calls. -/
def run (r : RegionStatistics) (events : List StatsEvent) : RegionStatistics := events.foldl apply r

end RegionStatistics

/-- Where an event leaves the last observation of region `id`: `some (some o)`
for an observation of it, `some none` for a clear of it, `none` for an event
about another region. -/
def StatsEvent.observation (id : UInt64) : StatsEvent → Option (Option (RegionInfo × List StoreInfo))
  | .observe region stores => if region.getID = id then some (some (region, stores)) else none
  | .clearDefunctRegion regionID => if regionID = id then some none else none

/-- The last observation of region `id` in `events`, unless a clear of it
came after: the region and the stores it was observed with. -/
def lastObservation (events : List StatsEvent) (id : UInt64) : Option (RegionInfo × List StoreInfo) :=
  ((events.filterMap (StatsEvent.observation id)).getLast?).join

/-- The last observation of each region, after one more event. -/
def recordObservation (last : UInt64 → Option (RegionInfo × List StoreInfo)) (e : StatsEvent) :
    UInt64 → Option (RegionInfo × List StoreInfo) :=
  fun id => (e.observation id).getD (last id)

theorem foldl_recordObservation (events : List StatsEvent) (last : UInt64 → Option (RegionInfo × List StoreInfo))
    (id : UInt64) :
    events.foldl recordObservation last id = ((events.filterMap (StatsEvent.observation id)).getLast?).getD (last id) := by
  induction events generalizing last with
  | nil => rfl
  | cons e events ih =>
    rw [List.foldl_cons, ih, List.filterMap_cons]
    cases ho : e.observation id with
    | none => simp [recordObservation, ho]
    | some o =>
      -- a later event about the region overrides this one
      cases hl : (events.filterMap (StatsEvent.observation id)).getLast? <;>
        simp [recordObservation, ho, hl, List.getLast?_cons]

/-- Each region's entries are those its last observation, if not cleared
since, files it under. -/
def Filed (last : UInt64 → Option (RegionInfo × List StoreInfo)) (r : RegionStatistics) : Prop :=
  ∀ t id, (r.stats t).lookup id = (last id).bind (filedRegion r.getMaxReplicas r.classifier t)

namespace RegionStatistics

variable {r : RegionStatistics} {last : UInt64 → Option (RegionInfo × List StoreInfo)}

theorem Indexed.apply (h : r.Indexed) (hf : Filed last r) (e : StatsEvent) :
    (r.apply e).Indexed ∧ Filed (recordObservation last e) (r.apply e) := by
  cases e with
  | observe region stores =>
    refine ⟨h.observe region stores, fun t id => ?_⟩
    rw [RegionStatistics.apply, h.lookup_stats_observe, getMaxReplicas_observe, classifier_observe]
    by_cases hid : id = region.getID
    · simp [recordObservation, StatsEvent.observation, hid]
    · simp [recordObservation, StatsEvent.observation, hid, Ne.symm hid, hf t id]
  | clearDefunctRegion regionID =>
    refine ⟨h.clearDefunctRegion regionID, fun t id => ?_⟩
    rw [RegionStatistics.apply, h.lookup_stats_clearDefunctRegion, getMaxReplicas_clearDefunctRegion,
      classifier_clearDefunctRegion]
    by_cases hid : id = regionID
    · simp [recordObservation, StatsEvent.observation, hid]
    · simp [recordObservation, StatsEvent.observation, hid, Ne.symm hid, hf t id]

theorem Indexed.run (h : r.Indexed) (hf : Filed last r) (events : List StatsEvent) :
    (r.run events).Indexed ∧ Filed (events.foldl recordObservation last) (r.run events) := by
  induction events generalizing r last with
  | nil => exact ⟨h, hf⟩
  | cons e events ih =>
    obtain ⟨h', hf'⟩ := h.apply hf e
    exact ih h' hf'

@[simp] theorem getMaxReplicas_run (events : List StatsEvent) : (r.run events).getMaxReplicas = r.getMaxReplicas := by
  induction events generalizing r with
  | nil => rfl
  | cons e events ih =>
    rw [run, List.foldl_cons, ← run, ih]
    cases e <;> simp [apply]

@[simp] theorem classifier_run (events : List StatsEvent) : (r.run events).classifier = r.classifier := by
  induction events generalizing r with
  | nil => rfl
  | cons e events ih =>
    rw [run, List.foldl_cons, ← run, ih]
    cases e <;> simp [apply]

end RegionStatistics

/-- From a new `regionStatistics`, along any sequence of `Observe` and
`clearDefunctRegion` calls, region `id` is filed under `t` exactly when its
last observation, not cleared since, has the type `t` as `Observe` tests it;
the region filed is the one last observed. -/
theorem lookup_stats_run (getMaxReplicas : String → Int) (classifier : Classifier) (events : List StatsEvent)
    (t : RegionStatisticType) (id : UInt64) :
    (((newRegionStatistics getMaxReplicas classifier).run events).stats t).lookup id =
      (lastObservation events id).bind (filedRegion getMaxReplicas classifier t) := by
  have hf₀ : Filed (fun _ => none) (newRegionStatistics getMaxReplicas classifier) := fun t id => by
    simp [newRegionStatistics]
  obtain ⟨-, hf⟩ := (RegionStatistics.indexed_newRegionStatistics getMaxReplicas classifier).run hf₀ events
  rw [hf t id, foldl_recordObservation, RegionStatistics.getMaxReplicas_run, RegionStatistics.classifier_run,
    lastObservation]
  cases (events.filterMap (StatsEvent.observation id)).getLast? <;> rfl


/-- With every store in the region's namespace the loop meets them all, and
`offlinePeer` is the test the code means: some store is offline and holds a
peer of the region. -/
theorem offlineBeforeMismatch_of_namespace (classifier : Classifier) (region : RegionInfo) (regionNamespace : String)
    (stores : List StoreInfo) (hns : ∀ s ∈ stores, classifier.getStoreNamespace s = regionNamespace) :
    offlineBeforeMismatch classifier region regionNamespace stores =
      stores.any fun s => s.isOffline && (region.getStorePeer s.getId).isSome := by
  induction stores with
  | nil => rfl
  | cons store stores ih =>
    have hstore : classifier.getStoreNamespace store = regionNamespace := hns store List.mem_cons_self
    rw [offlineBeforeMismatch, List.any_cons, ih fun s hs => hns s (List.mem_cons_of_mem store hs), hstore,
      beq_self_eq_true, Bool.true_and]

/-! ## The order of the stores -/

/-- Stores `1` and `2` hold a peer of the region; store `1` is in another
namespace than the region. -/
def orderClassifier : Classifier :=
  { defaultClassifier with getStoreNamespace := fun s => if s.getId = 1 then "other" else defaultNamespace }

/-- Region `1`, with its peers on stores `1` and `2`. -/
def twoStoreRegion : RegionInfo :=
  ⟨⟨1, [], [], ⟨1, 1⟩, [⟨1, 1, false⟩, ⟨2, 2, false⟩]⟩, some ⟨1, 1, false⟩, [], [], 0, 0, 0, 0⟩

/-- Store `2`, offline. -/
def offlineStore : StoreInfo :=
  ⟨⟨2, "", .offline, [], ""⟩, ⟨false, 0, 0, 0, 2, 0, 0⟩, false, 0, 0⟩

theorem offline_peer_depends_on_order :
    (∀ (getMaxReplicas : String → Int) (classifier : Classifier) (events : List StatsEvent)
        (t : RegionStatisticType) (id : UInt64),
      (((newRegionStatistics getMaxReplicas classifier).run events).stats t).lookup id =
        (lastObservation events id).bind (filedRegion getMaxReplicas classifier t)) ∧
    (∀ (classifier : Classifier) (region : RegionInfo) (stores : List StoreInfo),
      (∀ s ∈ stores, classifier.getStoreNamespace s = classifier.getRegionNamespace region) →
      offlineBeforeMismatch classifier region (classifier.getRegionNamespace region) stores =
        stores.any fun s => s.isOffline && (region.getStorePeer s.getId).isSome) ∧
    (∀ getMaxReplicas : String → Int,
      (((newRegionStatistics getMaxReplicas orderClassifier).run
          [.observe twoStoreRegion [upStore 1 [], offlineStore]]).stats .offlinePeer).lookup 1 = none ∧
      (((newRegionStatistics getMaxReplicas orderClassifier).run
          [.observe twoStoreRegion [offlineStore, upStore 1 []]]).stats .offlinePeer).lookup 1 =
        some twoStoreRegion) := by
  refine ⟨lookup_stats_run, fun classifier region stores hns => offlineBeforeMismatch_of_namespace _ _ _ _ hns,
    fun getMaxReplicas => ⟨?_, ?_⟩⟩
  · -- store 1 is met first: the loop stops before the offline store 2
    have hlast : lastObservation [.observe twoStoreRegion [upStore 1 [], offlineStore]] 1 =
        some (twoStoreRegion, [upStore 1 [], offlineStore]) := by decide
    rw [lookup_stats_run, hlast, Option.bind_some, filedRegion, observedType]
    decide
  · have hlast : lastObservation [.observe twoStoreRegion [offlineStore, upStore 1 []]] 1 =
        some (twoStoreRegion, [offlineStore, upStore 1 []]) := by decide
    rw [lookup_stats_run, hlast, Option.bind_some, filedRegion, observedType]
    decide


/-! ## Label isolation levels -/

/-- `notIsolatedStoresWithLabel(stores, label)`: the stores by their value of
`label`, skipping the empty value, and the groups of two or more. -/
def notIsolatedStoresWithLabel (stores : List StoreInfo) (label : String) : List (List StoreInfo) :=
  let m := stores.foldl (fun m s =>
    let labelValue := s.getLabelValue label
    if labelValue = "" then m else appendAt m labelValue s) ∅
  (m.entries.filter fun e => e.2.length > 1).map (·.2)

/-- The loop of `getRegionLabelIsolationLevel` over the labels from `level`
on: `queueStores` holds the groups of stores no label so far tells apart, and
the level is the first after which none is left. -/
def isolationLevelLoop : List String → Nat → List (List StoreInfo) → Int
  | [], _, _ => 0
  | label :: labels, level, queueStores =>
    let newQueueStores := queueStores.flatMap fun stores => notIsolatedStoresWithLabel stores label
    if newQueueStores.length = 0 then (level : Int) + 1
    else isolationLevelLoop labels (level + 1) newQueueStores

/-- `getRegionLabelIsolationLevel(stores, labels)`. -/
def getRegionLabelIsolationLevel (stores : List StoreInfo) (labels : List String) : Int :=
  if stores.length = 0 ∨ labels.length = 0 then 0
  else isolationLevelLoop labels 0 [stores]

/-- Two stores are at one location as far as `labels` go: each label has the
same non-empty value on both. -/
def SameLocation (labels : List String) (s t : StoreInfo) : Prop :=
  ∀ label ∈ labels, s.getLabelValue label ≠ "" ∧ s.getLabelValue label = t.getLabelValue label

instance (labels : List String) : DecidableRel (SameLocation labels) := fun _ _ =>
  inferInstanceAs (Decidable (∀ label ∈ labels, _ ∧ _))

/-- `labels` isolate the stores: no two entries of the list are at one
location as far as `labels` go. -/
def Isolated (labels : List String) (stores : List StoreInfo) : Prop :=
  stores.Pairwise fun s t => ¬ SameLocation labels s t

instance (labels : List String) (stores : List StoreInfo) : Decidable (Isolated labels stores) :=
  inferInstanceAs (Decidable (List.Pairwise _ _))

/-- The isolation level of a region as its definition reads: the least
`i + 1` for which the first `i + 1` labels isolate its stores, `0` with none,
or with no stores or no labels. -/
def isolationLevel (stores : List StoreInfo) (labels : List String) : Int :=
  if stores = [] ∨ labels = [] then 0
  else match (List.range labels.length).find? fun i => decide (Isolated (labels.take (i + 1)) stores) with
    | some i => (i : Int) + 1
    | none => 0

section IsolationLevel

variable (stores : List StoreInfo)

/-- The pairs of one group's subgroups are its pairs with one non-empty value
of the label. -/
theorem pairIn_notIsolatedStoresWithLabel (g : List StoreInfo) (label : String) (a b : StoreInfo) :
    PairIn (notIsolatedStoresWithLabel g label) a b ↔
      [a, b] <+ g ∧ (a.getLabelValue label ≠ "" ∧ a.getLabelValue label = b.getLabelValue label) := by
  simp only [notIsolatedStoresWithLabel]
  rw [pairIn_groups]
  simp only [lookup_foldl_appendAt (fun s : StoreInfo => s.getLabelValue label)
      (fun s : StoreInfo => s.getLabelValue label = ""),
    AList.lookup_empty, Option.getD_none, List.nil_append, pair_sublist_filter_iff]
  constructor
  · rintro ⟨v, hab, ha, hb⟩
    simp only [Bool.and_eq_true, Bool.not_eq_true', decide_eq_false_iff_not, beq_iff_eq] at ha hb
    exact ⟨hab, ha.1, ha.2.trans hb.2.symm⟩
  · rintro ⟨hab, hne, heq⟩
    refine ⟨a.getLabelValue label, hab, ?_, ?_⟩
    · simp [hne]
    · simp [← heq, hne]

theorem length_notIsolatedStoresWithLabel (g : List StoreInfo) (label : String) :
    ∀ g' ∈ notIsolatedStoresWithLabel g label, 1 < g'.length := by
  intro g' hg'
  obtain ⟨e, he, rfl⟩ := List.mem_map.mp hg'
  simpa using (List.mem_filter.mp he).2

/-- The queue after the labels `done`: two stores are left together in it
exactly when those labels put them at one location. -/
def QueueInv (done : List String) (queue : List (List StoreInfo)) : Prop :=
  ∀ a b, PairIn queue a b ↔ [a, b] <+ stores ∧ SameLocation done a b

theorem queueInv_init : QueueInv stores [] [stores] := by
  intro a b
  simp [pairIn_singleton, SameLocation]

variable {stores}

theorem sameLocation_append_singleton {done : List String} {label : String} {a b : StoreInfo} :
    SameLocation (done ++ [label]) a b ↔
      SameLocation done a b ∧ (a.getLabelValue label ≠ "" ∧ a.getLabelValue label = b.getLabelValue label) := by
  simp only [SameLocation, List.mem_append, List.mem_singleton, or_imp, forall_and, forall_eq]
  exact and_and_and_comm

/-- One label splits the queue: the invariant moves on by one label. -/
theorem QueueInv.step {done : List String} {queue : List (List StoreInfo)} (h : QueueInv stores done queue)
    (label : String) :
    QueueInv stores (done ++ [label]) (queue.flatMap fun g => notIsolatedStoresWithLabel g label) := by
  intro a b
  rw [pairIn_flatMap (pairIn_notIsolatedStoresWithLabel · label), h a b, sameLocation_append_singleton, and_assoc]

/-- The queue after a label is empty exactly when the labels so far isolate
the stores. -/
theorem QueueInv.eq_nil_iff {done : List String} {queue : List (List StoreInfo)} (h : QueueInv stores done queue)
    (hlen : ∀ g ∈ queue, 1 < g.length) : queue = [] ↔ Isolated done stores := by
  rw [eq_nil_iff_not_pairIn hlen, Isolated, pairwise_iff_not_pairIn h]

theorem length_flatMap_notIsolatedStoresWithLabel (queue : List (List StoreInfo)) (label : String) :
    ∀ g ∈ queue.flatMap (fun g => notIsolatedStoresWithLabel g label), 1 < g.length := by
  intro g hg
  obtain ⟨g₀, -, hg₀⟩ := List.mem_flatMap.mp hg
  exact length_notIsolatedStoresWithLabel g₀ label g hg₀

/-- The loop from any point on, by induction on the labels left: it returns
one more than the labels done and the first of the labels left after which
the stores are isolated. -/
theorem isolationLevelLoop_eq (labels done : List String) (queue : List (List StoreInfo))
    (h : QueueInv stores done queue) :
    isolationLevelLoop labels done.length queue =
      match (List.range labels.length).find? fun i => decide (Isolated (done ++ labels.take (i + 1)) stores) with
      | some i => (done.length : Int) + i + 1
      | none => 0 := by
  induction labels generalizing done queue with
  | nil => rfl
  | cons label labels ih =>
    have hstep := h.step label
    have hempty := hstep.eq_nil_iff (length_flatMap_notIsolatedStoresWithLabel queue label)
    -- the first label is tested at `i = 0`, the rest at `i + 1`
    have htake : ∀ i, done ++ (label :: labels).take (i + 1 + 1) = done ++ [label] ++ labels.take (i + 1) := by
      simp
    rw [List.length_cons, List.range_succ_eq_map, List.find?_cons, List.find?_map]
    simp only [isolationLevelLoop, List.length_eq_zero_iff, hempty, Function.comp_def, htake]
    by_cases hiso : Isolated (done ++ [label]) stores
    · simp [hiso]
    · have hlen : done.length + 1 = (done ++ [label]).length := by simp
      rw [if_neg hiso, hlen, ih (done ++ [label]) _ hstep]
      simp only [zero_add, List.take_succ_cons, List.take_zero, hiso, decide_false]
      cases (List.range labels.length).find? fun i => decide (Isolated (done ++ [label] ++ labels.take (i + 1)) stores)
      · rfl
      · simp only [Option.map_some, List.length_append, List.length_singleton]
        push_cast
        ring

/-- The queue refinement computes the isolation level of its definition. -/
theorem getRegionLabelIsolationLevel_eq (labels : List String) :
    getRegionLabelIsolationLevel stores labels = isolationLevel stores labels := by
  unfold getRegionLabelIsolationLevel isolationLevel
  simp only [List.length_eq_zero_iff]
  split
  · rfl
  · have h := isolationLevelLoop_eq labels [] [stores] (queueInv_init stores)
    simp only [List.length_nil, List.nil_append, Nat.cast_zero, zero_add] at h
    exact h

/-- The first case of `TestRegionLabelIsolationLevel`: the zones leave stores
`2` and `3` together, the racks tell them apart. -/
example : getRegionLabelIsolationLevel
    [upStore 1 [⟨"zone", "z1"⟩, ⟨"rack", "r1"⟩, ⟨"host", "h1"⟩],
      upStore 2 [⟨"zone", "z2"⟩, ⟨"rack", "r1"⟩, ⟨"host", "h2"⟩],
      upStore 3 [⟨"zone", "z2"⟩, ⟨"rack", "r2"⟩, ⟨"host", "h3"⟩]] ["zone", "rack", "host"] = 2 := by
  decide +kernel

end IsolationLevel


/-! ## Label level counters -/

/-- `labelLevelStatistics`: the level of each region and the number of
regions at each level. -/
structure LabelLevelStatistics where
  regionLabelLevelStats : AList (fun _ : UInt64 => Int)
  labelLevelCounter : AList (fun _ : Int => Int)

/-- `newLabelLevelStatistics()`. -/
def newLabelLevelStatistics : LabelLevelStatistics := ⟨∅, ∅⟩

namespace LabelLevelStatistics

variable (l : LabelLevelStatistics)

/-- The two writes that end `Observe`, on the counters `labelLevelCounter`:
`regionLabelLevelStats[regionID] = regionLabelLevel` and
`labelLevelCounter[regionLabelLevel]++`. -/
def setLevel (labelLevelCounter : AList (fun _ : Int => Int)) (regionID : UInt64) (regionLabelLevel : Int) :
    LabelLevelStatistics :=
  ⟨l.regionLabelLevelStats.insert regionID regionLabelLevel, GoMap.addAt labelLevelCounter regionLabelLevel 1⟩

/-- `Observe(region, stores, labels)`: a region at the level it had returns
early; one at a new level leaves its old level's counter first. -/
def observe (region : RegionInfo) (stores : List StoreInfo) (labels : List String) : LabelLevelStatistics :=
  let regionID := region.getID
  let regionLabelLevel := getRegionLabelIsolationLevel stores labels
  match l.regionLabelLevelStats.lookup regionID with
  | some level =>
    if level = regionLabelLevel then l
    else l.setLevel (GoMap.addAt l.labelLevelCounter level (-1)) regionID regionLabelLevel
  | none => l.setLevel l.labelLevelCounter regionID regionLabelLevel

/-- `clearDefunctRegion(regionID)`. -/
def clearDefunctRegion (regionID : UInt64) : LabelLevelStatistics :=
  match l.regionLabelLevelStats.lookup regionID with
  | some level => ⟨l.regionLabelLevelStats.erase regionID, GoMap.addAt l.labelLevelCounter level (-1)⟩
  | none => l

/-- The number of regions at `level`. -/
def regionsAt (level : Int) : Int := total (fun v => if v = level then 1 else 0) l.regionLabelLevelStats

/-- Each counter, read as Go reads a map, is the number of regions at its
level. -/
def CountersAgree : Prop := ∀ level, (l.labelLevelCounter.lookup level).getD 0 = l.regionsAt level

theorem countersAgree_new : newLabelLevelStatistics.CountersAgree := by
  intro level
  rfl

variable {l}

/-- The counter moves with the region: off its old level, if any, and onto
the new one. -/
theorem countersAgree_setLevel {counter : AList (fun _ : Int => Int)} (regionID : UInt64) (newLevel : Int)
    (hcounter : ∀ level, (counter.lookup level).getD 0 =
      l.regionsAt level - ((l.regionLabelLevelStats.lookup regionID).map fun v => if v = level then 1 else 0).getD 0) :
    (l.setLevel counter regionID newLevel).CountersAgree := by
  intro level
  simp only [LabelLevelStatistics.setLevel, regionsAt, getD_lookup_addAt, total_insert, hcounter]
  by_cases hl : level = newLevel
  · simp [hl]
  · simp [hl, Ne.symm hl]

theorem CountersAgree.observe (h : l.CountersAgree) (region : RegionInfo) (stores : List StoreInfo)
    (labels : List String) : (l.observe region stores labels).CountersAgree := by
  unfold LabelLevelStatistics.observe
  dsimp only
  split
  · next old hold =>
    split
    · exact h
    · -- the region leaves the counter of its old level
      refine countersAgree_setLevel _ _ fun level => ?_
      rw [getD_lookup_addAt, h level, hold]
      by_cases hl : level = old
      · simp [hl, sub_eq_add_neg]
      · simp [hl, Ne.symm hl]
  · next hnone =>
    refine countersAgree_setLevel _ _ fun level => ?_
    simp [hnone, h level]

theorem CountersAgree.clearDefunctRegion (h : l.CountersAgree) (regionID : UInt64) :
    (l.clearDefunctRegion regionID).CountersAgree := by
  unfold LabelLevelStatistics.clearDefunctRegion
  cases hold : l.regionLabelLevelStats.lookup regionID with
  | none => exact h
  | some old =>
    intro level
    simp only [regionsAt, total_erase, getD_lookup_addAt, hold]
    rw [h level, regionsAt]
    by_cases hl : level = old
    · simp [hl, sub_eq_add_neg]
    · simp [hl, Ne.symm hl]

end LabelLevelStatistics

/-- The calls `clusterInfo` makes on `labelLevelStatistics`. -/
inductive LevelEvent
  | observe (region : RegionInfo) (stores : List StoreInfo) (labels : List String)
  | clearDefunctRegion (regionID : UInt64)
  deriving Repr

namespace LabelLevelStatistics

/-- One call. -/
def apply (l : LabelLevelStatistics) : LevelEvent → LabelLevelStatistics
  | .observe region stores labels => l.observe region stores labels
  | .clearDefunctRegion regionID => l.clearDefunctRegion regionID

/-- The statistics after a sequence of calls. -/
def run (l : LabelLevelStatistics) (events : List LevelEvent) : LabelLevelStatistics := events.foldl apply l

theorem CountersAgree.run {l : LabelLevelStatistics} (h : l.CountersAgree) (events : List LevelEvent) :
    (l.run events).CountersAgree := by
  induction events generalizing l with
  | nil => exact h
  | cons e events ih =>
    apply ih
    cases e with
    | observe region stores labels => exact h.observe region stores labels
    | clearDefunctRegion regionID => exact h.clearDefunctRegion regionID

/-- The regions at `level`, counted as entries of the map. -/
theorem regionsAt_eq (l : LabelLevelStatistics) (level : Int) :
    l.regionsAt level = ((l.regionLabelLevelStats.entries.filter fun e => e.2 = level).length : Int) := by
  unfold regionsAt total
  induction l.regionLabelLevelStats.entries with
  | nil => rfl
  | cons e es ih =>
    by_cases he : e.2 = level <;> simp [he, ih]
    ring

end LabelLevelStatistics

/-- From new statistics, along any sequence of `Observe` and
`clearDefunctRegion` calls, the counter of each level is the number of
regions the map puts at that level. -/
theorem countersAgree_run (events : List LevelEvent) (level : Int) :
    (((newLabelLevelStatistics.run events).labelLevelCounter.lookup level).getD 0 : Int) =
      (((newLabelLevelStatistics.run events).regionLabelLevelStats.entries.filter fun e => e.2 = level).length :
        Int) := by
  rw [LabelLevelStatistics.countersAgree_new.run events level, LabelLevelStatistics.regionsAt_eq]


theorem label_level_statistics_correct :
    (∀ (stores : List StoreInfo) (labels : List String),
      getRegionLabelIsolationLevel stores labels = isolationLevel stores labels) ∧
    (∀ (events : List LevelEvent) (level : Int),
      ((newLabelLevelStatistics.run events).labelLevelCounter.lookup level).getD 0 =
        (((newLabelLevelStatistics.run events).regionLabelLevelStats.entries.filter fun e => e.2 = level).length :
          Int)) :=
  ⟨fun _ labels => getRegionLabelIsolationLevel_eq labels, countersAgree_run⟩

end PlacementDriver.Server
