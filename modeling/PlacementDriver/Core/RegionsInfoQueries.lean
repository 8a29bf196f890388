import PlacementDriver.Core.RegionsInfoInvariant
import PlacementDriver.Verified.GoMap

/-!
# Per-store and range queries of `RegionsInfo`

`server/core/region.go`. The per-store queries read the store maps:
`GetStoreRegions` lists the store's leader and follower maps, and the counts
and sizes add up its leader, follower and learner maps. `GetRegionStats`
scans the tree from a start key and folds `RegionStats.Observe` over the
regions it passes, until one ends at or past the end key. A Go map is listed
here in the order of its entries; the results are stated up to that order.

Over a consistent cache each store map holds exactly the cached regions with
its role on the store (`RegionsInfoInvariant`), and a well-formed region has
exactly one role on each store of its peers, so each query is a filter of the
cached regions. Two queries filter otherwise than their doc comments say.
`GetStoreRegions` leaves out the regions that have only a learner on the store,
which `GetStoreRegionCount` counts. `GetRegionStats` stops at a region that ends
exactly at the end key, although that region lies inside `[startKey, endKey)`.

## Main results

* `Consistent.getStoreRegions_perm`: the regions with a voter on the store,
  each once.
* `Consistent.getStoreRegionCount_eq`, `Consistent.getStoreLeaderCount_eq`,
  `Consistent.getStoreRegionSize_eq`: the number of regions with a peer, and
  with the leader, on the store, and the total size of the former.
* `Consistent.getRegionStats_eq`: the fold of `Observe` over the regions from
  the start key that end before the end key.
-/

namespace PlacementDriver

open Metapb RegionMap Verified DenseIndex GoMap

namespace StoreIndex

/-- The regions of `for _, region := range idx[storeID].m`, run when the store
has a map. -/
def regions (idx : StoreIndex) (storeId : UInt64) : List RegionInfo :=
  match idx.lookup storeId with
  | some rm => rm.m.entries.map (·.2.regionInfo)
  | none => []

/-- `idx[storeID].TotalSize()`: a nil map has length `0`, so its total is
`0`. -/
def totalSize (idx : StoreIndex) (storeId : UInt64) : Int :=
  ((idx.lookup storeId).map RegionMap.getTotalSize).getD 0

end StoreIndex

/-! ## Region statistics -/

/-- `RegionStats`: the counts are Go `int`s, the sizes `int64`s, and each
per-store figure a Go map. -/
structure RegionStats where
  count : Nat
  emptyCount : Nat
  storageSize : Int
  storageKeys : Int
  storeLeaderCount : AList (fun _ : UInt64 => Nat)
  storePeerCount : AList (fun _ : UInt64 => Nat)
  storeLeaderSize : AList (fun _ : UInt64 => Int)
  storeLeaderKeys : AList (fun _ : UInt64 => Int)
  storePeerSize : AList (fun _ : UInt64 => Int)
  storePeerKeys : AList (fun _ : UInt64 => Int)

/-- `newRegionStats`. -/
def newRegionStats : RegionStats := ⟨0, 0, 0, 0, ∅, ∅, ∅, ∅, ∅, ∅⟩

/-- `EmptyRegionApproximateSize`. -/
def emptyRegionApproximateSize : Int := 1

namespace RegionStats

/-- The part of `Observe` for the leader's store. -/
def observeLeader (s : RegionStats) (r : RegionInfo) (storeId : UInt64) : RegionStats :=
  { s with
    storeLeaderCount := GoMap.addAt s.storeLeaderCount storeId 1
    storeLeaderSize := GoMap.addAt s.storeLeaderSize storeId r.approximateSize
    storeLeaderKeys := GoMap.addAt s.storeLeaderKeys storeId r.approximateKeys }

/-- The body of `Observe`'s loop over the peers. -/
def observePeer (s : RegionStats) (r : RegionInfo) (p : Peer) : RegionStats :=
  { s with
    storePeerCount := GoMap.addAt s.storePeerCount p.storeId 1
    storePeerSize := GoMap.addAt s.storePeerSize p.storeId r.approximateSize
    storePeerKeys := GoMap.addAt s.storePeerKeys p.storeId r.approximateKeys }

/-- `Observe`. -/
def observe (s : RegionStats) (r : RegionInfo) : RegionStats :=
  let s : RegionStats :=
    { s with
      count := s.count + 1
      emptyCount := if r.approximateSize ≤ emptyRegionApproximateSize then s.emptyCount + 1
        else s.emptyCount
      storageSize := s.storageSize + r.approximateSize
      storageKeys := s.storageKeys + r.approximateKeys }
  let s := match r.leader with
    | some leader => s.observeLeader r leader.storeId
    | none => s
  r.regionMeta.peers.foldl (fun s p => s.observePeer r p) s

end RegionStats

namespace RegionsInfo

/-- `GetRegions`. -/
def getRegions (r : RegionsInfo) : List RegionInfo := r.regions.m.entries.map (·.2.regionInfo)

/-- `GetStoreRegions`. -/
def getStoreRegions (r : RegionsInfo) (storeID : UInt64) : List RegionInfo :=
  r.leaders.regions storeID ++ r.followers.regions storeID

/-- `GetStoreLeaderRegionSize`. -/
def getStoreLeaderRegionSize (r : RegionsInfo) (storeID : UInt64) : Int :=
  r.leaders.totalSize storeID

/-- `GetStoreFollowerRegionSize`. -/
def getStoreFollowerRegionSize (r : RegionsInfo) (storeID : UInt64) : Int :=
  r.followers.totalSize storeID

/-- `GetStoreLearnerRegionSize`. -/
def getStoreLearnerRegionSize (r : RegionsInfo) (storeID : UInt64) : Int :=
  r.learners.totalSize storeID

/-- `GetStoreRegionSize`. -/
def getStoreRegionSize (r : RegionsInfo) (storeID : UInt64) : Int :=
  r.getStoreLeaderRegionSize storeID + r.getStoreFollowerRegionSize storeID +
    r.getStoreLearnerRegionSize storeID

/-- The test of `GetRegionStats` that ends the scan:
`len(endKey) > 0 && (len(meta.EndKey) == 0 || bytes.Compare(meta.EndKey, endKey) >= 0)`. -/
def pastEnd (endKey : Key) (metaRegion : Region) : Bool :=
  !endKey.isEmpty && (metaRegion.endKey.isEmpty || decide (metaRegion.endKey ≥ endKey))

/-- `GetRegionStats`. -/
def getRegionStats (r : RegionsInfo) (startKey endKey : Key) : RegionStats :=
  r.tree.scanRange startKey (fun stats metaRegion =>
    if pastEnd endKey metaRegion then (stats, false)
    else ((r.getRegion metaRegion.id).elim stats stats.observe, true)) newRegionStats

end RegionsInfo

namespace RegionInfo

instance (ri : RegionInfo) (s : UInt64) : Decidable (ri.LeaderOn s) :=
  decidable_of_iff _ Option.map_eq_some_iff

instance (ri : RegionInfo) (s : UInt64) : Decidable (ri.FollowerOn s) :=
  inferInstanceAs (Decidable (∃ p ∈ ri.getVoters, p.storeId = s ∧ ri.leader ≠ some p))

instance (ri : RegionInfo) (s : UInt64) : Decidable (ri.LearnerOn s) :=
  inferInstanceAs (Decidable (∃ p ∈ ri.getLearners, p.storeId = s))

/-! ## The role of a region on a store -/

variable {ri : RegionInfo} {s : UInt64}

/-- Two peers of a well-formed region on one store are one peer. -/
theorem WellFormed.peer_eq (hw : ri.WellFormed) {p q : Peer} (hp : p ∈ ri.regionMeta.peers)
    (hq : q ∈ ri.regionMeta.peers) (h : p.storeId = q.storeId) : p = q :=
  List.inj_on_of_nodup_map hw.peerStores hp hq h

/-- A well-formed region has a peer on a store exactly when it has a role
there. -/
theorem WellFormed.hasPeer_iff (hw : ri.WellFormed) :
    s ∈ ri.regionMeta.peers.map Peer.storeId ↔ ri.LeaderOn s ∨ ri.FollowerOn s ∨ ri.LearnerOn s := by
  constructor
  · intro hs
    obtain ⟨p, hp, rfl⟩ := List.mem_map.mp hs
    by_cases hl : p.isLearner = true
    · exact .inr (.inr ⟨p, List.mem_filter.mpr ⟨hp, hl⟩, rfl⟩)
    · have hv : p ∈ ri.getVoters := List.mem_filter.mpr ⟨hp, by simpa using hl⟩
      by_cases hlead : ri.leader = some p
      · exact .inl ⟨p, hlead, rfl⟩
      · exact .inr (.inl ⟨p, hv, rfl, hlead⟩)
  · rintro (h | h | h)
    · exact hw.peer_of_leaderOn h
    · exact peer_of_followerOn h
    · exact peer_of_learnerOn h

/-- The roles on one store exclude each other: the leader is a voter, and the
store holds one peer of the region. -/
theorem WellFormed.roles_disjoint (hw : ri.WellFormed) :
    ¬ (ri.LeaderOn s ∧ ri.FollowerOn s) ∧ ¬ (ri.LeaderOn s ∧ ri.LearnerOn s) ∧
      ¬ (ri.FollowerOn s ∧ ri.LearnerOn s) := by
  obtain ⟨q, hq, hqv⟩ := hw.leader
  have hleader : ∀ p, ri.leader = some p → p = q := fun p hp => Option.some.inj (hp.symm.trans hq)
  refine ⟨?_, ?_, ?_⟩
  · rintro ⟨⟨p, hp, rfl⟩, ⟨f, hfv, hfs, hne⟩⟩
    have hpq := hleader p hp
    subst hpq
    have hfp : f = p := hw.peer_eq (getVoters_subset hfv) (getVoters_subset hqv) hfs
    exact hne (hfp ▸ hp)
  · rintro ⟨⟨p, hp, rfl⟩, ⟨l, hll, hls⟩⟩
    have hpq := hleader p hp
    subst hpq
    have hlp : l = p := hw.peer_eq (getLearners_subset hll) (getVoters_subset hqv) hls
    subst hlp
    have hvoter := (List.mem_filter.mp hqv).2
    have hlearner := (List.mem_filter.mp hll).2
    simp [hlearner] at hvoter
  · rintro ⟨⟨f, hfv, rfl, -⟩, ⟨l, hll, hls⟩⟩
    have hlf : l = f := hw.peer_eq (getLearners_subset hll) (getVoters_subset hfv) hls
    subst hlf
    have hvoter := (List.mem_filter.mp hfv).2
    have hlearner := (List.mem_filter.mp hll).2
    simp [hlearner] at hvoter

end RegionInfo

/-! ## Filters split by disjoint predicates -/

section Filters

variable {α M : Type*} [AddCommMonoid M]

/-- Two disjoint filters together list what the filter by either lists. -/
theorem perm_filter_or (a b : α → Bool) :
    ∀ l : List α, (∀ x ∈ l, ¬ (a x = true ∧ b x = true)) →
      (l.filter a ++ l.filter b).Perm (l.filter fun x => a x || b x)
  | [], _ => .nil
  | x :: l, hx => by
    have ih := perm_filter_or a b l fun y hy => hx y (.tail _ hy)
    have hab := hx x (.head _)
    rw [List.filter_cons, List.filter_cons, List.filter_cons]
    cases ha : a x <;> cases hb : b x
    · simpa using ih
    · simpa using List.perm_middle.trans (.cons x ih)
    · simpa using List.Perm.cons x ih
    · exact absurd ⟨ha, hb⟩ hab

/-- A sum over a filter by a disjoint union of three predicates splits into
the three sums. -/
theorem sum_filter_or₃ (f : α → M) (a b c : α → Bool) :
    ∀ l : List α, (∀ x ∈ l, ¬ (a x = true ∧ b x = true) ∧ ¬ (a x = true ∧ c x = true) ∧
        ¬ (b x = true ∧ c x = true)) →
      ((l.filter fun x => a x || b x || c x).map f).sum =
        ((l.filter a).map f).sum + ((l.filter b).map f).sum + ((l.filter c).map f).sum
  | [], _ => by simp
  | x :: l, hx => by
    have ih := sum_filter_or₃ f a b c l fun y hy => hx y (.tail _ hy)
    obtain ⟨hab, hac, hbc⟩ := hx x (.head _)
    simp only [List.filter_cons]
    cases ha : a x <;> cases hb : b x <;> cases hc : c x <;>
      simp only [ha, hb, hc, Bool.or_true, Bool.or_false, if_true, Bool.false_eq_true,
        if_false, List.map_cons, List.sum_cons, ih, and_self, not_true_eq_false] at hab hac hbc ⊢
    · abel
    · abel
    · abel

/-- A fold that skips the items `g` maps to `none` is a fold over the
`filterMap`. -/
theorem foldl_elim_eq {α β σ : Type*} (g : α → Option β) (f : σ → β → σ) :
    ∀ (l : List α) (s : σ), l.foldl (fun s x => (g x).elim s (f s)) s = (l.filterMap g).foldl f s
  | [], _ => rfl
  | x :: l, s => by
    cases hx : g x with
    | none => simp [hx, foldl_elim_eq g f l]
    | some b => simp [hx, foldl_elim_eq g f l]

/-- Filtering before a `filterMap` whose results remember their argument
through `m` is filtering after it. -/
theorem filterMap_filter_eq {α β : Type*} (g : α → Option β) (m : β → α) (P : α → Bool)
    {l : List α} (hg : ∀ x ∈ l, ∃ b, g x = some b ∧ m b = x) :
    (l.filter P).filterMap g = (l.filterMap g).filter (fun b => P (m b)) := by
  rw [List.filter_filterMap, List.filterMap_filter]
  refine List.filterMap_congr fun x hx => ?_
  obtain ⟨b, hb, rfl⟩ := hg x hx
  by_cases hP : P (m b) = true <;> simp [hb, hP, Option.filter]

end Filters

/-! ## The store maps as filters of the cached regions -/

namespace RegionsInfo

variable {r : RegionsInfo}

/-- The entries of a region map as pairs of id and region. -/
def pairs (m : AList (fun _ : UInt64 => RegionEntry)) : List (UInt64 × RegionInfo) :=
  m.entries.map fun e => (e.1, e.2.regionInfo)

theorem mem_pairs {m : AList (fun _ : UInt64 => RegionEntry)} {id : UInt64} {ri : RegionInfo} :
    (id, ri) ∈ pairs m ↔ (m.lookup id).map RegionEntry.regionInfo = some ri := by
  simp only [pairs, List.mem_map, Option.map_eq_some_iff, Prod.mk.injEq]
  constructor
  · rintro ⟨⟨k, e⟩, he, rfl, rfl⟩
    exact ⟨e, AList.mem_lookup_iff.mpr he, rfl⟩
  · rintro ⟨e, he, rfl⟩
    exact ⟨⟨id, e⟩, AList.mem_lookup_iff.mp he, rfl, rfl⟩

theorem nodup_pairs (m : AList (fun _ : UInt64 => RegionEntry)) : (pairs m).Nodup := by
  have hkeys : (pairs m).map Prod.fst = m.keys := by
    simp [pairs, AList.keys, List.keys, List.map_map, Function.comp_def]
  exact List.Nodup.of_map Prod.fst (hkeys ▸ m.keys_nodup)

/-- The map of a store, a nil map being empty. -/
def mapAt (idx : StoreIndex) (s : UInt64) : RegionMap := (idx.lookup s).getD newRegionMap

theorem regions_eq_mapAt (idx : StoreIndex) (s : UInt64) :
    idx.regions s = (pairs (mapAt idx s).m).map Prod.snd := by
  unfold StoreIndex.regions mapAt pairs
  cases idx.lookup s with
  | none => rfl
  | some rm => simp [List.map_map, Function.comp_def]

theorem get_eq_mapAt (idx : StoreIndex) (s id : UInt64) : idx.get s id = (mapAt idx s).get id := by
  unfold StoreIndex.get mapAt
  cases idx.lookup s <;> rfl

theorem getRegions_eq (r : RegionsInfo) : r.getRegions = (pairs r.regions.m).map Prod.snd := by
  simp [getRegions, pairs, List.map_map, Function.comp_def]

theorem mem_getRegions {ri : RegionInfo} (h : ri ∈ r.getRegions) : ∃ id, r.getRegion id = some ri := by
  rw [getRegions_eq] at h
  obtain ⟨⟨id, ri'⟩, hp, rfl⟩ := List.mem_map.mp h
  exact ⟨id, mem_pairs.mp hp⟩

/-- A store map that agrees with the id map lists the cached regions with its
role on the store, each once. -/
theorem StoreAgrees.regions_perm {idx : StoreIndex} {role : RegionInfo → UInt64 → Prop}
    [∀ ri s, Decidable (role ri s)] (h : StoreAgrees idx r.getRegion role) (s : UInt64) :
    (idx.regions s).Perm (r.getRegions.filter fun ri => decide (role ri s)) := by
  -- compare the pairs of id and region: both lists are free of duplicates
  have hpairs : (pairs (mapAt idx s).m).Perm
      ((pairs r.regions.m).filter fun p => decide (role p.2 s)) := by
    rw [List.perm_ext_iff_of_nodup (nodup_pairs _) ((nodup_pairs _).filter _)]
    rintro ⟨id, ri⟩
    rw [List.mem_filter, mem_pairs, mem_pairs, decide_eq_true_eq]
    have hagree := h s id ri
    rw [get_eq_mapAt] at hagree
    exact hagree
  rw [regions_eq_mapAt, getRegions_eq, List.filter_map]
  exact hpairs.map Prod.snd

theorem len_eq_length (idx : StoreIndex) (s : UInt64) : idx.len s = (idx.regions s).length := by
  unfold StoreIndex.len StoreIndex.regions
  cases idx.lookup s with
  | none => rfl
  | some rm => simp [RegionMap.len, AList.keys, List.keys]

theorem totalSize_eq_sum {idx : StoreIndex} (hv : idx.AllValid) (s : UInt64) :
    idx.totalSize s = ((idx.regions s).map RegionInfo.approximateSize).sum := by
  unfold StoreIndex.totalSize StoreIndex.regions
  cases hs : idx.lookup s with
  | none => rfl
  | some rm =>
    have hrm := hv s rm hs
    simp only [Option.map_some, Option.getD_some, getTotalSize, List.map_map]
    split_ifs with hlen
    · -- an empty map has no entries
      have hnil : rm.m.entries = [] := by
        simpa [RegionMap.len, AList.keys, List.keys] using hlen
      simp [hnil]
    · rw [hrm.totalSize]
      rfl

theorem Consistent.wellFormed_of_mem (h : r.Consistent) {ri : RegionInfo} (hri : ri ∈ r.getRegions) :
    ri.WellFormed := by
  obtain ⟨id, hid⟩ := mem_getRegions hri
  exact h.indexes.wellFormed id ri hid

/-- The three roles on a store split the regions with a peer there. -/
theorem Consistent.filter_hasPeer (h : r.Consistent) (s : UInt64) :
    (r.getRegions.filter fun ri => decide (s ∈ ri.regionMeta.peers.map Peer.storeId)) =
      r.getRegions.filter fun ri =>
        decide (ri.LeaderOn s) || decide (ri.FollowerOn s) || decide (ri.LearnerOn s) := by
  refine List.filter_congr fun ri hri => ?_
  rw [Bool.eq_iff_iff, decide_eq_true_eq, (h.wellFormed_of_mem hri).hasPeer_iff]
  simp [or_assoc]

theorem Consistent.roles_disjoint (h : r.Consistent) (s : UInt64) :
    ∀ ri ∈ r.getRegions, ¬ (decide (ri.LeaderOn s) = true ∧ decide (ri.FollowerOn s) = true) ∧
      ¬ (decide (ri.LeaderOn s) = true ∧ decide (ri.LearnerOn s) = true) ∧
      ¬ (decide (ri.FollowerOn s) = true ∧ decide (ri.LearnerOn s) = true) := by
  intro ri hri
  simpa only [decide_eq_true_eq] using (h.wellFormed_of_mem hri).roles_disjoint

/-! ## The per-store queries -/

theorem Consistent.getStoreRegions_perm (h : r.Consistent) (s : UInt64) :
    (r.getStoreRegions s).Perm
      (r.getRegions.filter fun ri => decide (ri.LeaderOn s) || decide (ri.FollowerOn s)) := by
  have hl := h.indexes.leaders.regions_perm s
  have hf := h.indexes.followers.regions_perm s
  exact (hl.append hf).trans (perm_filter_or _ _ _ fun ri hri => (h.roles_disjoint s ri hri).1)

theorem Consistent.getStoreLeaderCount_eq (h : r.Consistent) (s : UInt64) :
    r.getStoreLeaderCount s = (r.getRegions.filter fun ri => decide (ri.LeaderOn s)).length := by
  rw [getStoreLeaderCount, len_eq_length]
  exact (h.indexes.leaders.regions_perm s).length_eq

theorem Consistent.getStoreRegionCount_eq (h : r.Consistent) (s : UInt64) :
    r.getStoreRegionCount s =
      (r.getRegions.filter fun ri => decide (s ∈ ri.regionMeta.peers.map Peer.storeId)).length := by
  have hsplit := sum_filter_or₃ (fun _ => (1 : Nat)) _ _ _ r.getRegions (h.roles_disjoint s)
  simp only [List.map_const', List.sum_replicate, smul_eq_mul, mul_one] at hsplit
  rw [h.filter_hasPeer, hsplit, getStoreRegionCount, getStoreLeaderCount, getStoreFollowerCount,
    getStoreLearnerCount, len_eq_length, len_eq_length, len_eq_length,
    (h.indexes.leaders.regions_perm s).length_eq, (h.indexes.followers.regions_perm s).length_eq,
    (h.indexes.learners.regions_perm s).length_eq]

theorem Consistent.getStoreRegionSize_eq (h : r.Consistent) (s : UInt64) :
    r.getStoreRegionSize s =
      ((r.getRegions.filter fun ri => decide (s ∈ ri.regionMeta.peers.map Peer.storeId)).map
        RegionInfo.approximateSize).sum := by
  rw [h.filter_hasPeer, sum_filter_or₃ _ _ _ _ r.getRegions (h.roles_disjoint s),
    getStoreRegionSize, getStoreLeaderRegionSize, getStoreFollowerRegionSize,
    getStoreLearnerRegionSize, totalSize_eq_sum h.indexes.leadersValid,
    totalSize_eq_sum h.indexes.followersValid, totalSize_eq_sum h.indexes.learnersValid,
    ((h.indexes.leaders.regions_perm s).map _).sum_eq, ((h.indexes.followers.regions_perm s).map _).sum_eq,
    ((h.indexes.learners.regions_perm s).map _).sum_eq]

/-! ## The range statistics -/

/-- The cached regions in the order of the tree, that is of their start
keys. -/
def regionsInKeyOrder (r : RegionsInfo) : List RegionInfo :=
  r.tree.tree.items.filterMap fun x => r.getRegion x.id

open RegionTree in
theorem pastEnd_iff (endKey : Key) (x : Region) :
    pastEnd endKey x = true ↔ endKey.isEmpty = false ∧ (endKey : WithTop Key) ≤ rangeHi x := by
  unfold pastEnd rangeHi endBound
  cases x.endKey.isEmpty
  · simp [WithTop.coe_le_coe]
  · simp

theorem not_pastEnd (endKey : Key) (x : Region) :
    (!pastEnd endKey x) = (endKey.isEmpty || (!x.endKey.isEmpty && decide (x.endKey < endKey))) := by
  unfold pastEnd
  cases endKey.isEmpty <;> cases x.endKey.isEmpty <;> simp only [Bool.not_false, Bool.not_true,
    Bool.true_and, Bool.false_and, Bool.true_or, Bool.false_or, Bool.and_true, Bool.or_false]
  rw [← decide_not]
  exact decide_eq_decide.mpr not_le

open RegionTree in
/-- Along the tree, a region past the end key is followed only by such
regions: it ends before the next one starts, and that one ends after its
start. -/
theorem pastEnd_mono (endKey : Key) {x y : Region} (hxy : rangeHi x ≤ (y.startKey : WithTop Key))
    (hy : Proper y) (hx : pastEnd endKey x = true) : pastEnd endKey y = true := by
  rw [pastEnd_iff] at hx ⊢
  exact ⟨hx.1, hx.2.trans (hxy.trans (le_of_lt hy))⟩

/-- `GetRegionStats` over a consistent cache: the fold of `Observe`, in key
order, over the regions that start at or after `startKey` and, unless
`endKey` is empty, end before it. -/
theorem Consistent.getRegionStats_eq (h : r.Consistent) (startKey endKey : Key) :
    r.getRegionStats startKey endKey =
      (r.regionsInKeyOrder.filter fun ri => decide (startKey ≤ ri.regionMeta.startKey) &&
        (endKey.isEmpty || (!ri.regionMeta.endKey.isEmpty &&
          decide (ri.regionMeta.endKey < endKey)))).foldl RegionStats.observe newRegionStats := by
  -- the scan stops at the first region past the end, and the ones after it are past it too
  have hmono : (r.tree.tree.items.filter fun a =>
      decide ¬ (a.startKey < (Region.ofStartKey startKey).startKey)).Pairwise
      (fun x y => (!pastEnd endKey y) = true → (!pastEnd endKey x) = true) := by
    refine (h.tree.wf.chain.imp_of_mem fun {x y} _ hy hxy hpy => ?_).filter _
    simp only [Bool.not_eq_true'] at hpy ⊢
    cases hx : pastEnd endKey x
    · rfl
    · rw [pastEnd_mono endKey hxy (h.tree.wf.proper y hy) hx] at hpy
      cases hpy
  have hitems : ∀ x ∈ r.tree.tree.items, ∃ ri, r.getRegion x.id = some ri ∧ ri.regionMeta = x :=
    h.tree.item
  unfold getRegionStats RegionTree.scanRange Vendor.BTree.ascendGreaterOrEqual regionsInKeyOrder
  rw [Vendor.BTree.iterate_fold, KeyRange.takeWhile_eq_filter hmono, List.filter_filter,
    foldl_elim_eq, filterMap_filter_eq _ RegionInfo.regionMeta _ hitems]
  congr 1
  refine List.filter_congr fun ri _ => ?_
  rw [not_pastEnd, Region.ofStartKey_startKey, Bool.and_comm]
  simp only [not_lt]

/-- Over a consistent cache, the regions in key order are the tree's items,
each with its region. -/
theorem Consistent.map_regionMeta_regionsInKeyOrder (h : r.Consistent) :
    r.regionsInKeyOrder.map RegionInfo.regionMeta = r.tree.tree.items := by
  unfold regionsInKeyOrder
  rw [List.map_filterMap]
  conv_rhs => rw [← List.filterMap_some (l := r.tree.tree.items)]
  refine List.filterMap_congr fun x hx => ?_
  obtain ⟨ri, hri, rfl⟩ := h.tree.item x hx
  rw [hri, Option.map_some]

/-- `ScanRange` over a consistent cache: the first `limit` regions, in key
order, of those starting at or after `startKey`. -/
theorem Consistent.scanRange_eq (h : r.Consistent) (startKey : Key) {limit : Nat} (hlimit : 0 < limit) :
    r.scanRange startKey limit =
      ((r.regionsInKeyOrder.filter fun ri => decide (startKey ≤ ri.regionMeta.startKey)).take limit).map
        some := by
  have hitems : ∀ x ∈ r.tree.tree.items, ∃ ri, r.getRegion x.id = some ri ∧ ri.regionMeta = x :=
    h.tree.item
  -- every item the scan passes has its region, so no nil is collected
  have hsome : ∀ l : List Region, (∀ x ∈ l, ∃ ri, r.getRegion x.id = some ri ∧ ri.regionMeta = x) →
      l.map (fun x => r.getRegion x.id) = (l.filterMap fun x => r.getRegion x.id).map some := by
    intro l hl
    rw [List.map_filterMap_some_eq_filter_map_isSome, eq_comm, List.filter_eq_self]
    intro b hb
    obtain ⟨x, hx, rfl⟩ := List.mem_map.mp hb
    obtain ⟨ri, hri, -⟩ := hl x hx
    simp [hri]
  unfold scanRange RegionTree.scanRange Vendor.BTree.ascendGreaterOrEqual regionsInKeyOrder
  rw [Vendor.BTree.iterate_take _ _ _ _ hlimit, List.nil_append, List.length_nil, Nat.sub_zero,
    List.map_take, hsome _ fun x hx => hitems x (List.mem_of_mem_filter hx),
    filterMap_filter_eq _ RegionInfo.regionMeta _ hitems, List.map_take]
  congr 3
  funext ri
  rw [Region.ofStartKey_startKey]
  exact decide_eq_decide.mpr not_lt

/-! ## A learner's store, and a region that ends at the end key -/

/-- A cache built from nothing by calls that set well-formed regions keeps
the invariant. -/
theorem consistent_run_getD {ops : List Op} (hops : ∀ ri, Op.setRegion ri ∈ ops → ri.WellFormed) :
    ((run newRegionsInfo ops).getD newRegionsInfo).Consistent := by
  obtain ⟨r, hrun, hr⟩ := consistent_run consistent_newRegionsInfo _ hops
  rw [hrun]
  exact hr

theorem consistent_setRegion_new {region : RegionInfo} (hw : region.WellFormed) :
    ((run newRegionsInfo [.setRegion region]).getD newRegionsInfo).Consistent := by
  refine consistent_run_getD fun ri hri => ?_
  rw [List.mem_singleton, Op.setRegion.injEq] at hri
  exact hri ▸ hw

/-- A region led from store 1, with a learner on store 2. -/
def learnerRegion : RegionInfo :=
  ⟨⟨1, [], [], ⟨1, 1⟩, [⟨1, 1, false⟩, ⟨2, 2, true⟩]⟩, some ⟨1, 1, false⟩, [], [], 0, 0, 0, 0⟩

theorem wellFormed_learnerRegion : learnerRegion.WellFormed :=
  ⟨.inr rfl, by decide, by decide, ⟨⟨1, 1, false⟩, rfl, by decide⟩,
    fun _ hp => absurd hp List.not_mem_nil⟩

/-- The cache after `SetRegion(learnerRegion)`. -/
def learnerCache : RegionsInfo := (run newRegionsInfo [.setRegion learnerRegion]).getD newRegionsInfo

theorem store_regions_miss_learners :
    (∀ r : RegionsInfo, r.Consistent → ∀ s : UInt64,
      (r.getStoreRegions s).Perm
        (r.getRegions.filter fun ri => decide (ri.LeaderOn s) || decide (ri.FollowerOn s)) ∧
      r.getStoreRegionCount s =
        (r.getRegions.filter fun ri => decide (s ∈ ri.regionMeta.peers.map Peer.storeId)).length ∧
      r.getStoreLeaderCount s = (r.getRegions.filter fun ri => decide (ri.LeaderOn s)).length ∧
      r.getStoreRegionSize s =
        ((r.getRegions.filter fun ri => decide (s ∈ ri.regionMeta.peers.map Peer.storeId)).map
          RegionInfo.approximateSize).sum) ∧
    learnerCache.Consistent ∧ learnerCache.getRegions = [learnerRegion] ∧
    learnerCache.getStoreRegions 2 = [] ∧ learnerCache.getStoreRegionCount 2 = 1 :=
  ⟨fun _ h s => ⟨h.getStoreRegions_perm s, h.getStoreRegionCount_eq s, h.getStoreLeaderCount_eq s,
    h.getStoreRegionSize_eq s⟩, consistent_setRegion_new wellFormed_learnerRegion, by decide,
    by decide, by decide⟩

/-- The region `["a", "b")`. -/
def abRegion : RegionInfo :=
  ⟨⟨1, [0x61], [0x62], ⟨1, 1⟩, [⟨1, 1, false⟩]⟩, some ⟨1, 1, false⟩, [], [], 0, 0, 0, 0⟩

theorem wellFormed_abRegion : abRegion.WellFormed :=
  ⟨.inl (by decide), by decide, by decide, ⟨⟨1, 1, false⟩, rfl, by decide⟩,
    fun _ hp => absurd hp List.not_mem_nil⟩

/-- The cache after `SetRegion(abRegion)`. -/
def abCache : RegionsInfo := (run newRegionsInfo [.setRegion abRegion]).getD newRegionsInfo

theorem region_stats_miss_boundary_region :
    (∀ r : RegionsInfo, r.Consistent → ∀ startKey endKey : Key,
      r.getRegionStats startKey endKey =
        (r.regionsInKeyOrder.filter fun ri => decide (startKey ≤ ri.regionMeta.startKey) &&
          (endKey.isEmpty || (!ri.regionMeta.endKey.isEmpty &&
            decide (ri.regionMeta.endKey < endKey)))).foldl RegionStats.observe newRegionStats) ∧
    abCache.Consistent ∧ abCache.regionsInKeyOrder = [abRegion] ∧
    (abCache.getRegionStats abRegion.regionMeta.startKey abRegion.regionMeta.endKey).count = 0 ∧
    ((abCache.regionsInKeyOrder.filter fun ri =>
      decide (abRegion.regionMeta.startKey ≤ ri.regionMeta.startKey) &&
        (!ri.regionMeta.endKey.isEmpty && decide (ri.regionMeta.endKey ≤ abRegion.regionMeta.endKey))).foldl
        RegionStats.observe newRegionStats).count = 1 :=
  ⟨fun _ h => h.getRegionStats_eq, consistent_setRegion_new wellFormed_abRegion, by decide, by decide,
    by decide⟩

end RegionsInfo

end PlacementDriver
