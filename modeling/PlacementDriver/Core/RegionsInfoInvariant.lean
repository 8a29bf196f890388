import PlacementDriver.Core.RegionsInfo

/-!
# The six indexes of `RegionsInfo` stay in step

We show that from `NewRegionsInfo`, along any sequence of `SetRegion` calls on
well-formed regions and `RemoveRegion` calls on cached regions, `RegionsInfo`
keeps the invariant `Consistent`: the tree is a chain of the cached regions'
ranges, each store map holds exactly the cached regions with a peer of its
role on that store, and every `regionMap` is `Valid`; and that `SetRegion`
never reaches the nil dereference of `RemoveRegion(GetRegion(item.Id))`.

The proof goes through a view of the cache, the function from id to cached
region. Each index is related to a view by its own predicate (`TreeAgrees`,
`StoreAgrees`), and every stage of `SetRegion` is a lemma saying what it does
to the view and which predicates it keeps:

* `IndexesAgree.removeRegion`: `RemoveRegion` of a cached region clears its id
  in every index but the tree, whatever the tree holds;
* `TreeAgrees.remove`: it also removes the region's meta from the tree;
* `TreeAgrees.update`: the tree's `update` evicts exactly the cached regions
  meeting the new range (`evict`);
* `removeOverlaps_spec`: the loop over the overlaps finds each of them cached
  and leaves the tree alone, as each overlap is already out of it;
* `IndexesAgree.putRegion`: the puts at the end of `AddRegion` record the
  region under the stores of its roles.

Without the store maps, a sorted tree whose items are cached (`TreeCached`)
is kept by `SetRegion` of any region whose id is not cached, whatever its
range and with or without a leader, which is how `loadRegions` fills the cache
(`TreeCached.setRegion`).

`Consistent.setRegion` assembles them: `SetRegion` succeeds and acts on the
view as `setView`. The run lemma `consistent_run` and the statement over
whole runs `regionsInfo_consistent` follow.

## Main results

* `Consistent.setRegion`, `Consistent.removeRegion`: the step lemmas.
* `TreeCached.setRegion`: the step lemma for regions with no leader and of any
  range.
* `consistent_run`: the run lemma.
* `regionsInfo_consistent`: the invariant along every run from `NewRegionsInfo`.
-/

namespace PlacementDriver

open Metapb RegionTree StoreIndex Verified DenseIndex RegionMap

namespace RegionInfo

/-! ## Roles of a well-formed region -/

variable {ri : RegionInfo} {s : UInt64}

theorem getVoters_subset {p : Peer} (hp : p ∈ ri.getVoters) : p ∈ ri.regionMeta.peers :=
  List.mem_of_mem_filter hp

theorem getLearners_subset {p : Peer} (hp : p ∈ ri.getLearners) : p ∈ ri.regionMeta.peers :=
  List.mem_of_mem_filter hp

/-- Two voters with one id are one peer. -/
theorem WellFormed.voter_eq (hw : ri.WellFormed) {p q : Peer} (hp : p ∈ ri.getVoters)
    (hq : q ∈ ri.getVoters) (h : p.id = q.id) : p = q :=
  List.inj_on_of_nodup_map hw.peerIds (getVoters_subset hp) (getVoters_subset hq) h

/-- The leader is the voter with the leader's id, which is how `AddRegion`
tells it apart. -/
theorem WellFormed.leaderOn_iff (hw : ri.WellFormed) :
    ri.LeaderOn s ↔ s ∈ (ri.getVoters.filter (fun p => p.id = ri.leaderId)).map Peer.storeId := by
  obtain ⟨q, hq, hqv⟩ := hw.leader
  have hlid : ri.leaderId = q.id := by simp [leaderId, hq]
  simp only [List.mem_map, List.mem_filter, decide_eq_true_eq, hlid]
  constructor
  · rintro ⟨p, hp, rfl⟩
    rw [hq] at hp
    rw [← Option.some.inj hp]
    exact ⟨q, ⟨hqv, rfl⟩, rfl⟩
  · rintro ⟨p, ⟨hpv, hpid⟩, rfl⟩
    exact ⟨q, hq, by rw [hw.voter_eq hpv hqv hpid]⟩

/-- A follower is a voter of another id than the leader's. -/
theorem WellFormed.followerOn_iff (hw : ri.WellFormed) :
    ri.FollowerOn s ↔
      s ∈ (ri.getVoters.filter (fun p => ¬ p.id = ri.leaderId)).map Peer.storeId := by
  obtain ⟨q, hq, hqv⟩ := hw.leader
  have hlid : ri.leaderId = q.id := by simp [leaderId, hq]
  simp only [FollowerOn, List.mem_map, List.mem_filter, decide_eq_true_eq, hlid, hq, ne_eq,
    Option.some.injEq]
  constructor
  · rintro ⟨p, hpv, rfl, hne⟩
    exact ⟨p, ⟨hpv, fun hid => hne (hw.voter_eq hqv hpv hid.symm)⟩, rfl⟩
  · rintro ⟨p, ⟨hpv, hid⟩, rfl⟩
    exact ⟨p, hpv, rfl, fun hqp => hid (by rw [hqp])⟩

theorem learnerOn_iff : ri.LearnerOn s ↔ s ∈ ri.getLearners.map Peer.storeId := by
  simp only [LearnerOn, List.mem_map]

theorem pendingOn_iff : ri.PendingOn s ↔ s ∈ ri.pendingPeers.map Peer.storeId := by
  simp only [PendingOn, List.mem_map]

/-- Every role is held by a peer, so `RemoveRegion`'s loop over the peers
reaches every store map holding the region. -/
theorem WellFormed.peer_of_leaderOn (hw : ri.WellFormed) (h : ri.LeaderOn s) :
    s ∈ ri.regionMeta.peers.map Peer.storeId := by
  obtain ⟨p, hp, rfl⟩ := h
  obtain ⟨q, hq, hqv⟩ := hw.leader
  rw [hq] at hp
  rw [← Option.some.inj hp]
  exact List.mem_map_of_mem (getVoters_subset hqv)

theorem peer_of_followerOn (h : ri.FollowerOn s) : s ∈ ri.regionMeta.peers.map Peer.storeId := by
  obtain ⟨p, hpv, rfl, -⟩ := h
  exact List.mem_map_of_mem (getVoters_subset hpv)

theorem peer_of_learnerOn (h : ri.LearnerOn s) : s ∈ ri.regionMeta.peers.map Peer.storeId := by
  obtain ⟨p, hpl, rfl⟩ := h
  exact List.mem_map_of_mem (getLearners_subset hpl)

theorem WellFormed.peer_of_pendingOn (hw : ri.WellFormed) (h : ri.PendingOn s) :
    s ∈ ri.regionMeta.peers.map Peer.storeId := by
  obtain ⟨p, hpp, rfl⟩ := h
  exact List.mem_map_of_mem (hw.pending p hpp)

end RegionInfo

namespace RegionsInfo

/-! ## Views of the cache -/

/-- What `SetRegion` evicts, said of a view: every region whose range meets
`region`'s. -/
def evict (v : UInt64 → Option RegionInfo) (region : RegionInfo) : UInt64 → Option RegionInfo :=
  fun id => (v id).filter (fun ri => !decide (Meets region.regionMeta ri.regionMeta))

/-- What `SetRegion` does to the view: `region` replaces the region of its id
and evicts every region whose range meets its own. -/
def setView (v : UInt64 → Option RegionInfo) (region : RegionInfo) : UInt64 → Option RegionInfo :=
  Function.update (evict v region) region.getID (some region)

/-- The tree holds the metas of the view's regions and nothing else. -/
structure TreeAgrees (t : RegionTree) (v : UInt64 → Option RegionInfo) : Prop where
  wf : t.WF
  item : ∀ x ∈ t.tree.items, ∃ ri, v x.id = some ri ∧ ri.regionMeta = x
  stored : ∀ id ri, v id = some ri → ri.regionMeta ∈ t.tree.items

/-- A store index holds under each store exactly the view's regions that have
the role `role` on that store. -/
def StoreAgrees (idx : StoreIndex) (v : UInt64 → Option RegionInfo)
    (role : RegionInfo → UInt64 → Prop) : Prop :=
  ∀ s id ri, idx.get s id = some ri ↔ v id = some ri ∧ role ri s

/-- Every index but the tree agrees with the id map. -/
structure IndexesAgree (r : RegionsInfo) : Prop where
  regions : r.regions.Valid
  wellFormed : ∀ id ri, r.getRegion id = some ri → ri.WellFormed
  leaders : StoreAgrees r.leaders r.getRegion (fun ri s => ri.LeaderOn s)
  followers : StoreAgrees r.followers r.getRegion (fun ri s => ri.FollowerOn s)
  learners : StoreAgrees r.learners r.getRegion (fun ri s => ri.LearnerOn s)
  pendingPeers : StoreAgrees r.pendingPeers r.getRegion (fun ri s => ri.PendingOn s)
  leadersValid : r.leaders.AllValid
  followersValid : r.followers.AllValid
  learnersValid : r.learners.AllValid
  pendingPeersValid : r.pendingPeers.AllValid

/-- The invariant of `RegionsInfo`. -/
structure Consistent (r : RegionsInfo) : Prop where
  indexes : IndexesAgree r
  tree : TreeAgrees r.tree r.getRegion

variable {t : RegionTree} {v : UInt64 → Option RegionInfo} {idx : StoreIndex}
  {role : RegionInfo → UInt64 → Prop} {r : RegionsInfo}

theorem IndexesAgree.getID (h : IndexesAgree r) {id : UInt64} {ri : RegionInfo}
    (hri : r.getRegion id = some ri) : ri.getID = id :=
  h.regions.get_eq_some hri

/-! ## The tree against a view -/

section Tree

/-- Regions of the view are cached under their own ids. -/
def Keyed (v : UInt64 → Option RegionInfo) : Prop := ∀ id ri, v id = some ri → ri.getID = id

/-- Two items of one id are one item. -/
theorem TreeAgrees.eq_of_id (h : TreeAgrees t v) {x y : Region} (hx : x ∈ t.tree.items)
    (hy : y ∈ t.tree.items) (hid : x.id = y.id) : x = y := by
  obtain ⟨rx, hvx, rfl⟩ := h.item x hx
  obtain ⟨ry, hvy, rfl⟩ := h.item _ hy
  rw [hid, hvy] at hvx
  rw [Option.some.inj hvx]

theorem TreeAgrees.nodup_ids (h : TreeAgrees t v) : (t.tree.items.map Region.id).Nodup := by
  have hnodup : t.tree.items.Nodup :=
    h.wf.sorted.imp (fun {a b} hab (heq : a = b) => absurd hab (heq ▸ lt_irrefl _))
  exact hnodup.map_on (fun x hx y hy hid => h.eq_of_id hx hy hid)

/-- `remove` of a cached region takes its meta out of the tree. -/
theorem TreeAgrees.remove (h : TreeAgrees t v) (hkey : Keyed v) {id : UInt64} {ri : RegionInfo}
    (hri : v id = some ri) : TreeAgrees (t.remove ri.regionMeta) (Function.update v id none) := by
  have hid : ri.regionMeta.id = id := hkey id ri hri
  refine ⟨wf_remove h.wf, fun x hx => ?_, fun id' rx hrx => ?_⟩
  · obtain ⟨hxt, hxn⟩ := (mem_remove h.wf).mp hx
    obtain ⟨rx, hvx, hmx⟩ := h.item x hxt
    -- the item removed is the one of `id`, as it covers its own start key
    have hne : x.id ≠ id := by
      intro hxid
      rw [hxid, hri] at hvx
      rw [← Option.some.inj hvx] at hmx
      subst hmx
      exact hxn ⟨⟨le_rfl, h.wf.proper _ hxt⟩, rfl⟩
    exact ⟨rx, by rw [Function.update_of_ne hne, hvx], hmx⟩
  · by_cases hid' : id' = id
    · rw [hid', Function.update_self] at hrx
      cases hrx
    · rw [Function.update_of_ne hid'] at hrx
      refine (mem_remove h.wf).mpr ⟨h.stored id' rx hrx, fun hc => hid' ?_⟩
      rw [← hkey id' rx hrx, ← hid]
      exact hc.2

/-- The region ids `update` reports are those of the cached regions meeting
the new range. -/
theorem TreeAgrees.mem_update_ids (h : TreeAgrees t v) (hkey : Keyed v) (region : Region)
    (id : UInt64) :
    id ∈ (t.update region).2.map Region.id ↔ ∃ ri, v id = some ri ∧ Meets region ri.regionMeta := by
  rw [update_snd h.wf]
  simp only [List.mem_map, List.mem_filter, decide_eq_true_eq]
  constructor
  · rintro ⟨x, ⟨hx, hmeet⟩, rfl⟩
    obtain ⟨rx, hvx, rfl⟩ := h.item x hx
    exact ⟨rx, hvx, hmeet⟩
  · rintro ⟨ri, hri, hmeet⟩
    exact ⟨ri.regionMeta, ⟨h.stored id ri hri, hmeet⟩, hkey id ri hri⟩

/-- The overlaps `update` reports are cached under their ids. -/
theorem TreeAgrees.update_cached (h : TreeAgrees t v) (region : Region) :
    ∀ x ∈ (t.update region).2, ∃ ri, v x.id = some ri ∧ ri.regionMeta = x := by
  intro x hx
  rw [update_snd h.wf, List.mem_filter] at hx
  exact h.item x hx.1

theorem TreeAgrees.update_nodup_ids (h : TreeAgrees t v) (region : Region) :
    ((t.update region).2.map Region.id).Nodup := by
  rw [update_snd h.wf]
  exact h.nodup_ids.sublist (List.Sublist.map _ List.filter_sublist)

/-- Dropping the reported ids from a view is `evict`. -/
theorem TreeAgrees.drop_update_ids (h : TreeAgrees t v) (hkey : Keyed v) (region : RegionInfo) :
    (fun id => if id ∈ (t.update region.regionMeta).2.map Region.id then none else v id) =
      evict v region := by
  funext id
  unfold evict
  by_cases hmem : id ∈ (t.update region.regionMeta).2.map Region.id
  · obtain ⟨ri, hri, hmeet⟩ := (h.mem_update_ids hkey region.regionMeta id).mp hmem
    rw [if_pos hmem, hri, Option.filter_some, decide_eq_true hmeet]
    rfl
  · rw [if_neg hmem]
    cases hv : v id with
    | none => rfl
    | some ri =>
        have hn : ¬ Meets region.regionMeta ri.regionMeta :=
          fun hmeet => hmem ((h.mem_update_ids hkey region.regionMeta id).mpr ⟨ri, hv, hmeet⟩)
        rw [Option.filter_some, decide_eq_false hn]
        rfl

/-- `update` of a region whose id is not cached puts its meta in the tree and
evicts the regions meeting its range. -/
theorem TreeAgrees.update (h : TreeAgrees t v) {region : RegionInfo}
    (hnone : v region.getID = none) (hreg : Proper region.regionMeta) :
    TreeAgrees (t.update region.regionMeta).1 (setView v region) := by
  refine ⟨wf_update h.wf hreg, fun x hx => ?_, fun id ri hri => ?_⟩
  · rcases (mem_update h.wf hreg).mp hx with rfl | ⟨hxt, hxn⟩
    · exact ⟨region, Function.update_self .., rfl⟩
    · obtain ⟨rx, hvx, hmx⟩ := h.item x hxt
      have hne : x.id ≠ region.getID := by
        intro hxid
        rw [hxid, hnone] at hvx
        cases hvx
      refine ⟨rx, ?_, hmx⟩
      rw [setView, Function.update_of_ne hne, evict, hvx, Option.filter_some, hmx,
        decide_eq_false hxn]
      rfl
  · by_cases hid : id = region.getID
    · rw [hid, setView, Function.update_self] at hri
      rw [← Option.some.inj hri]
      exact (mem_update h.wf hreg).mpr (.inl rfl)
    · rw [setView, Function.update_of_ne hid, evict] at hri
      obtain ⟨hvi, hmeet⟩ := Option.filter_eq_some_iff.mp hri
      refine (mem_update h.wf hreg).mpr (.inr ⟨h.stored id ri hvi, ?_⟩)
      simpa using hmeet

/-- After `update`, removing an overlap finds nothing of its id: the overlap
is out of the tree, and whatever now covers its start key is the new region. -/
theorem TreeAgrees.remove_overlap (h : TreeAgrees t v) {region : RegionInfo}
    (hnone : v region.getID = none) (hreg : Proper region.regionMeta) {x : Region}
    (hx : x ∈ (t.update region.regionMeta).2) :
    (t.update region.regionMeta).1.remove x = (t.update region.regionMeta).1 := by
  rw [update_snd h.wf, List.mem_filter, decide_eq_true_eq] at hx
  obtain ⟨hxt, hxmeet⟩ := hx
  apply remove_eq_self (wf_update h.wf hreg)
  intro b hb hcov hid
  rcases (mem_update h.wf hreg).mp hb with rfl | ⟨hbt, hbn⟩
  · -- the new region: its id is not cached, the overlap's is
    obtain ⟨rx, hvx, -⟩ := h.item x hxt
    have hsame : region.getID = x.id := hid
    rw [hsame, hvx] at hnone
    cases hnone
  · -- an old region covering the overlap's start key is the overlap
    have hxcov : Covers x.startKey x := ⟨le_rfl, h.wf.proper x hxt⟩
    have hbx : b = x := KeyRange.covers_unique h.wf.chain hbt hxt hcov hxcov
    exact hbn (hbx ▸ hxmeet)

end Tree

/-! ## Store indexes against a view -/

section Stores

/-- Deleting a cached region's id from the stores of its roles. -/
theorem StoreAgrees.deleteAll (h : StoreAgrees idx v role) (hv : idx.AllValid)
    {stores : List UInt64} {id : UInt64} {ri : RegionInfo} (hri : v id = some ri)
    (hrole : ∀ s, role ri s → s ∈ stores) :
    StoreAgrees (idx.deleteAll stores id) (Function.update v id none) role := by
  intro s id' ri'
  rw [get_deleteAll hv]
  by_cases hid : id' = id
  · subst hid
    rw [Function.update_self]
    by_cases hs : s ∈ stores
    · rw [if_pos ⟨hs, rfl⟩]
      simp
    · rw [if_neg (fun hc => hs hc.1)]
      simp only [reduceCtorEq, false_and, iff_false]
      intro hget
      obtain ⟨hvi, hr⟩ := (h s id' ri').mp hget
      rw [hri] at hvi
      rw [← Option.some.inj hvi] at hr
      exact hs (hrole s hr)
  · rw [if_neg (fun hc => hid hc.2), Function.update_of_ne hid]
    exact h s id' ri'

/-- Putting a region whose id is not cached into the stores of its roles. -/
theorem StoreAgrees.putAll (h : StoreAgrees idx v role) {stores : List UInt64}
    {region : RegionInfo} (hnone : v region.getID = none) (hrole : ∀ s, role region s ↔ s ∈ stores) :
    StoreAgrees (idx.putAll stores region) (Function.update v region.getID (some region)) role := by
  intro s id ri
  rw [get_putAll]
  by_cases hid : id = region.getID
  · subst hid
    rw [Function.update_self]
    by_cases hs : s ∈ stores
    · rw [if_pos ⟨hs, rfl⟩]
      constructor
      · intro he
        rw [← Option.some.inj he]
        exact ⟨rfl, (hrole s).mpr hs⟩
      · exact fun hc => hc.1
    · rw [if_neg (fun hc => hs hc.1)]
      constructor
      · intro hget
        have hvi := ((h s region.getID ri).mp hget).1
        rw [hnone] at hvi
        cases hvi
      · rintro ⟨he, hr⟩
        rw [← Option.some.inj he] at hr
        exact absurd ((hrole s).mp hr) hs
  · rw [if_neg (fun hc => hid hc.2), Function.update_of_ne hid]
    exact h s id ri

end Stores

/-! ## `RemoveRegion` -/

theorem getRegion_removeRegion (h : r.regions.Valid) (ri : RegionInfo) :
    (r.removeRegion ri).getRegion = Function.update r.getRegion ri.getID none := by
  funext id
  rw [removeRegion_eq]
  simp only [getRegion]
  rw [RegionMap.get_delete h]
  by_cases hid : id = ri.getID
  · rw [if_pos hid, hid, Function.update_self]
  · rw [if_neg hid, Function.update_of_ne hid]
    rfl

theorem removeRegion_tree (r : RegionsInfo) (ri : RegionInfo) :
    (r.removeRegion ri).tree = r.tree.remove ri.regionMeta := by
  rw [removeRegion_eq]

theorem valid_removeRegion (h : r.regions.Valid) (ri : RegionInfo) :
    (r.removeRegion ri).regions.Valid := by
  rw [removeRegion_eq]
  exact valid_delete h _

/-- `RemoveRegion` of a cached region clears its id from every index but the
tree, whatever the tree holds. -/
theorem IndexesAgree.removeRegion (h : IndexesAgree r) {id : UInt64} {ri : RegionInfo}
    (hri : r.getRegion id = some ri) : IndexesAgree (r.removeRegion ri) := by
  have hw : ri.WellFormed := h.wellFormed id ri hri
  rw [← h.getID hri] at hri
  have hview := getRegion_removeRegion h.regions ri
  rw [removeRegion_eq] at hview ⊢
  refine ⟨valid_delete h.regions _, fun id' ri' h' => ?_, ?_, ?_, ?_, ?_,
    allValid_deleteAll h.leadersValid _ _, allValid_deleteAll h.followersValid _ _,
    allValid_deleteAll h.learnersValid _ _, allValid_deleteAll h.pendingPeersValid _ _⟩
  · rw [hview] at h'
    by_cases hid' : id' = ri.getID
    · rw [hid', Function.update_self] at h'
      cases h'
    · rw [Function.update_of_ne hid'] at h'
      exact h.wellFormed id' ri' h'
  -- each store map loses the region under the stores of its peers
  · rw [hview]
    exact h.leaders.deleteAll h.leadersValid hri (fun s hs => hw.peer_of_leaderOn hs)
  · rw [hview]
    exact h.followers.deleteAll h.followersValid hri (fun s hs => RegionInfo.peer_of_followerOn hs)
  · rw [hview]
    exact h.learners.deleteAll h.learnersValid hri (fun s hs => RegionInfo.peer_of_learnerOn hs)
  · rw [hview]
    exact h.pendingPeers.deleteAll h.pendingPeersValid hri (fun s hs => hw.peer_of_pendingOn hs)

/-- `RemoveRegion` of a cached region keeps the invariant and clears its id. -/
theorem Consistent.removeRegion (h : Consistent r) {id : UInt64} {ri : RegionInfo}
    (hri : r.getRegion id = some ri) :
    Consistent (r.removeRegion ri) ∧
      (r.removeRegion ri).getRegion = Function.update r.getRegion id none := by
  have hid : ri.getID = id := h.indexes.getID hri
  have hview : (r.removeRegion ri).getRegion = Function.update r.getRegion id none := by
    rw [getRegion_removeRegion h.indexes.regions, hid]
  refine ⟨⟨h.indexes.removeRegion hri, ?_⟩, hview⟩
  rw [removeRegion_tree, hview]
  exact h.tree.remove (fun id' ri' h' => h.indexes.getID h') hri

/-! ## `AddRegion` and `SetRegion` -/

@[simp] theorem getRegion_withTree (r : RegionsInfo) (t : RegionTree) :
    ({ r with tree := t } : RegionsInfo).getRegion = r.getRegion := rfl

/-- The indexes other than the tree do not read the tree. -/
theorem IndexesAgree.withTree (h : IndexesAgree r) (t : RegionTree) :
    IndexesAgree { r with tree := t } :=
  ⟨h.regions, h.wellFormed, h.leaders, h.followers, h.learners, h.pendingPeers, h.leadersValid,
    h.followersValid, h.learnersValid, h.pendingPeersValid⟩

/-- The loop over the overlaps: each overlap is still cached when it is
reached, and removing it leaves the tree alone. -/
theorem removeOverlaps_spec {os : List Region} (h : r.regions.Valid)
    (hcached : ∀ x ∈ os, ∃ ri, r.getRegion x.id = some ri ∧ ri.regionMeta = x)
    (hnodup : (os.map Region.id).Nodup) (hnoop : ∀ x ∈ os, r.tree.remove x = r.tree) :
    ∃ r', removeOverlaps r os = some r' ∧ r'.regions.Valid ∧ r'.tree = r.tree ∧
      r'.getRegion = fun id => if id ∈ os.map Region.id then none else r.getRegion id := by
  induction os generalizing r with
  | nil => exact ⟨r, rfl, h, rfl, by funext id; simp⟩
  | cons x os ih =>
      obtain ⟨ri, hri, hmeta⟩ := hcached x List.mem_cons_self
      rw [List.map_cons, List.nodup_cons] at hnodup
      obtain ⟨hxos, hnodup'⟩ := hnodup
      have hid : ri.getID = x.id := h.get_eq_some hri
      have hview1 : (r.removeRegion ri).getRegion = Function.update r.getRegion x.id none := by
        rw [getRegion_removeRegion h, hid]
      have htree1 : (r.removeRegion ri).tree = r.tree := by
        rw [removeRegion_tree, hmeta]
        exact hnoop x List.mem_cons_self
      -- the other overlaps have other ids, so they are still cached after `x` goes
      have hne : ∀ y ∈ os, y.id ≠ x.id := by
        intro y hy hyx
        have hmem : y.id ∈ os.map Region.id := List.mem_map_of_mem hy
        rw [hyx] at hmem
        exact hxos hmem
      obtain ⟨r', hrun, h', htree', hview'⟩ := ih (valid_removeRegion h ri)
        (fun y hy => by
          rw [hview1, Function.update_of_ne (hne y hy)]
          exact hcached y (List.mem_cons_of_mem _ hy))
        hnodup'
        (fun y hy => by
          rw [htree1]
          exact hnoop y (List.mem_cons_of_mem _ hy))
      refine ⟨r', ?_, h', htree'.trans htree1, ?_⟩
      · simp only [removeOverlaps, List.foldlM_cons, hri, Option.map_some]
        exact hrun
      · rw [hview', hview1]
        funext id
        by_cases hidx : id = x.id
        · simp [hidx]
        · simp [hidx]

/-- The loop over the overlaps keeps the indexes other than the tree: each
step is `RemoveRegion` of a cached region. -/
theorem IndexesAgree.removeOverlaps {os : List Region} {r' : RegionsInfo} (h : IndexesAgree r)
    (hrun : removeOverlaps r os = some r') : IndexesAgree r' := by
  induction os generalizing r with
  | nil =>
      cases hrun
      exact h
  | cons x os ih =>
      simp only [RegionsInfo.removeOverlaps, List.foldlM_cons] at hrun
      cases hri : r.getRegion x.id with
      | none => simp [hri] at hrun
      | some ri =>
          rw [hri, Option.map_some, Option.bind_eq_bind, Option.bind_some] at hrun
          exact ih (h.removeRegion hri) hrun

/-- `Put` on the id map, as a view: the region under its own id. -/
theorem get_put_eq_update (rm : RegionMap) (region : RegionInfo) :
    (rm.put region).get = Function.update rm.get region.getID (some region) := by
  funext id
  rw [RegionMap.get_put]
  by_cases hid : id = region.getID
  · rw [if_pos hid, hid, Function.update_self]
  · rw [if_neg hid, Function.update_of_ne hid]

/-- The puts at the end of `AddRegion` put the region in the id map under its
id and leave the tree, whatever the store maps hold. -/
theorem putRegion_view (h : r.regions.Valid) (region : RegionInfo) :
    (addPendingPeers (addLearners (addVoters
        { r with regions := r.regions.put region } region) region) region).regions.Valid ∧
      (addPendingPeers (addLearners (addVoters
        { r with regions := r.regions.put region } region) region) region).getRegion =
        Function.update r.getRegion region.getID (some region) ∧
      (addPendingPeers (addLearners (addVoters
        { r with regions := r.regions.put region } region) region) region).tree = r.tree := by
  simp only [addPendingPeers_eq, addLearners_eq, addVoters_eq, and_true]
  exact ⟨valid_put h region, get_put_eq_update r.regions region⟩

/-- The puts at the end of `AddRegion`, for a region whose id is not cached:
the region goes to the store maps of its roles. -/
theorem IndexesAgree.putRegion (h : IndexesAgree r) {region : RegionInfo}
    (hnone : r.getRegion region.getID = none) (hw : region.WellFormed) :
    IndexesAgree (addPendingPeers (addLearners (addVoters
        { r with regions := r.regions.put region } region) region) region) := by
  simp only [addPendingPeers_eq, addLearners_eq, addVoters_eq]
  have hview : (r.regions.put region).get = Function.update r.getRegion region.getID (some region) :=
    get_put_eq_update r.regions region
  refine ⟨valid_put h.regions region, fun id ri hri => ?_, ?_, ?_, ?_, ?_,
    allValid_putAll h.leadersValid _ _, allValid_putAll h.followersValid _ _,
    allValid_putAll h.learnersValid _ _, allValid_putAll h.pendingPeersValid _ _⟩
  · change (r.regions.put region).get id = some ri at hri
    rw [hview] at hri
    by_cases hid : id = region.getID
    · rw [hid, Function.update_self] at hri
      rw [← Option.some.inj hri]
      exact hw
    · rw [Function.update_of_ne hid] at hri
      exact h.wellFormed id ri hri
  -- each store map gains the region under the stores of its role
  · change StoreAgrees _ (r.regions.put region).get _
    rw [hview]
    exact h.leaders.putAll hnone (fun s => hw.leaderOn_iff)
  · change StoreAgrees _ (r.regions.put region).get _
    rw [hview]
    exact h.followers.putAll hnone (fun s => hw.followerOn_iff)
  · change StoreAgrees _ (r.regions.put region).get _
    rw [hview]
    exact h.learners.putAll hnone (fun s => RegionInfo.learnerOn_iff)
  · change StoreAgrees _ (r.regions.put region).get _
    rw [hview]
    exact h.pendingPeers.putAll hnone (fun s => RegionInfo.pendingOn_iff)

/-- A region of the view after `setView` is the new one, or was there before. -/
theorem setView_eq_some {v : UInt64 → Option RegionInfo} {region ri : RegionInfo} {id : UInt64}
    (h : setView v region id = some ri) : id = region.getID ∨ v id = some ri := by
  by_cases hid : id = region.getID
  · exact .inl hid
  · rw [setView, Function.update_of_ne hid, evict] at h
    exact .inr (Option.filter_eq_some_iff.mp h).1

/-- Clearing the region's own id first changes nothing `setView` reads. -/
theorem setView_update_self (v : UInt64 → Option RegionInfo) (region : RegionInfo) :
    setView (Function.update v region.getID none) region = setView v region := by
  funext id
  by_cases hid : id = region.getID
  · rw [hid, setView, setView, Function.update_self, Function.update_self]
  · rw [setView, setView, Function.update_of_ne hid, Function.update_of_ne hid, evict, evict,
      Function.update_of_ne hid]

/-- The first half of `AddRegion`, for a proper region whose id is not cached:
the loop over the overlaps `update` reports finds each of them cached, leaves
the updated tree, and evicts them from the view. -/
theorem removeOverlaps_update (hv : r.regions.Valid) (ht : TreeAgrees r.tree r.getRegion)
    {region : RegionInfo} (hnone : r.getRegion region.getID = none)
    (hreg : Proper region.regionMeta) :
    ∃ r₂, removeOverlaps { r with tree := (r.tree.update region.regionMeta).1 }
        (r.tree.update region.regionMeta).2 = some r₂ ∧
      r₂.regions.Valid ∧ r₂.tree = (r.tree.update region.regionMeta).1 ∧
      r₂.getRegion = evict r.getRegion region := by
  have hkey : Keyed r.getRegion := fun _ _ h' => hv.get_eq_some h'
  obtain ⟨r₂, hrun, hv₂, htree₂, hview₂⟩ :=
    removeOverlaps_spec (r := { r with tree := (r.tree.update region.regionMeta).1 }) hv
      (ht.update_cached region.regionMeta) (ht.update_nodup_ids region.regionMeta)
      (fun x hx => ht.remove_overlap hnone hreg hx)
  refine ⟨r₂, hrun, hv₂, htree₂, ?_⟩
  rw [hview₂, getRegion_withTree]
  exact ht.drop_update_ids hkey region

/-- `AddRegion` of a well-formed region whose id is not cached succeeds, keeps
the invariant, and acts on the view as `setView`. -/
theorem Consistent.addRegion (h : Consistent r) {region : RegionInfo} (hw : region.WellFormed)
    (hnone : r.getRegion region.getID = none) :
    ∃ r' overlaps, r.addRegion region = some (r', overlaps) ∧ Consistent r' ∧
      r'.getRegion = setView r.getRegion region := by
  have hreg : Proper region.regionMeta := proper_of_range hw.range
  obtain ⟨r₂, hrun, -, htree₂, hview₂⟩ := removeOverlaps_update h.indexes.regions h.tree hnone hreg
  have h₂ : IndexesAgree r₂ := (h.indexes.withTree _).removeOverlaps hrun
  have hnone₂ : r₂.getRegion region.getID = none := by
    rw [hview₂, evict, hnone]
    rfl
  obtain ⟨-, hview₃, htree₃⟩ := putRegion_view h₂.regions region
  refine ⟨_, (r.tree.update region.regionMeta).2, ?_, ⟨h₂.putRegion hnone₂ hw, ?_⟩, ?_⟩
  · simp only [RegionsInfo.addRegion, hrun]
  · rw [htree₃, hview₃, hview₂, htree₂]
    exact h.tree.update hnone hreg
  · rw [hview₃, hview₂]
    rfl

/-- `SetRegion` of a well-formed region succeeds, keeps the invariant, and
acts on the view as `setView`. -/
theorem Consistent.setRegion (h : Consistent r) {region : RegionInfo} (hw : region.WellFormed) :
    ∃ r' overlaps, r.setRegion region = some (r', overlaps) ∧ Consistent r' ∧
      r'.getRegion = setView r.getRegion region := by
  unfold RegionsInfo.setRegion
  cases horigin : r.getRegion region.getID with
  | none => exact h.addRegion hw horigin
  | some origin =>
      -- the cached region of the same id goes first
      obtain ⟨h₁, hview₁⟩ := h.removeRegion horigin
      have hnone₁ : (r.removeRegion origin).getRegion region.getID = none := by
        rw [hview₁, Function.update_self]
      obtain ⟨r', overlaps, hadd, h', hview'⟩ := h₁.addRegion hw hnone₁
      exact ⟨r', overlaps, hadd, h', by rw [hview', hview₁, setView_update_self]⟩

theorem consistent_newRegionsInfo : Consistent newRegionsInfo where
  indexes :=
    { regions := valid_newRegionMap
      wellFormed := fun _ _ h => by cases h
      leaders := fun _ _ _ => by simp [newRegionsInfo, getRegion]
      followers := fun _ _ _ => by simp [newRegionsInfo, getRegion]
      learners := fun _ _ _ => by simp [newRegionsInfo, getRegion]
      pendingPeers := fun _ _ _ => by simp [newRegionsInfo, getRegion]
      leadersValid := allValid_empty
      followersValid := allValid_empty
      learnersValid := allValid_empty
      pendingPeersValid := allValid_empty }
  tree :=
    { wf := ⟨List.Pairwise.nil, fun _ h => absurd h List.not_mem_nil⟩
      item := fun _ h => absurd h List.not_mem_nil
      stored := fun _ _ h => by cases h }

/-! ## Regions without a leader -/

/-- What `SetRegion` needs of the cache not to panic, for regions of any
range and with no leader: a valid id map, a tree sorted by start key, and
every item of the tree the meta of the region cached under its id.
`loadRegions` caches regions with no leader, which are never `WellFormed`,
and whatever ranges the store holds. -/
structure TreeCached (r : RegionsInfo) : Prop where
  regions : r.regions.Valid
  sorted : r.tree.tree.Sorted Region.startKey
  item : ∀ x ∈ r.tree.tree.items, ∃ ri, r.getRegion x.id = some ri ∧ ri.regionMeta = x

theorem Consistent.treeCached (h : Consistent r) : TreeCached r :=
  ⟨h.indexes.regions, h.tree.wf.sorted, h.tree.item⟩

/-- Two items of one id are one item. -/
theorem TreeCached.eq_of_id (h : TreeCached r) {x y : Region} (hx : x ∈ r.tree.tree.items)
    (hy : y ∈ r.tree.tree.items) (hid : x.id = y.id) : x = y := by
  obtain ⟨rx, hvx, rfl⟩ := h.item x hx
  obtain ⟨ry, hvy, rfl⟩ := h.item _ hy
  rw [hid, hvy] at hvx
  rw [Option.some.inj hvx]

theorem TreeCached.nodup_ids (h : TreeCached r) : (r.tree.tree.items.map Region.id).Nodup := by
  have hnodup : r.tree.tree.items.Nodup :=
    h.sorted.imp (fun {a b} hab (heq : a = b) => absurd hab (heq ▸ lt_irrefl _))
  exact hnodup.map_on (fun x hx y hy hid => h.eq_of_id hx hy hid)

/-- `SetRegion` of a region whose id is not cached succeeds whatever its range:
the overlaps `update` reports are cached items of distinct ids, and after the
update no item has one of their ids, so `RemoveRegion` finds each and leaves
the tree alone. It keeps `TreeCached`, caches the region, keeps only regions
that were cached, and reports only cached regions. -/
theorem TreeCached.setRegion (h : TreeCached r) {region : RegionInfo}
    (hnone : r.getRegion region.getID = none) :
    ∃ r' overlaps, r.setRegion region = some (r', overlaps) ∧ TreeCached r' ∧
      (∀ id ri, r'.getRegion id = some ri → id = region.getID ∨ r.getRegion id = some ri) ∧
      ∀ x ∈ overlaps, ∃ ri, r.getRegion x.id = some ri := by
  have hsub : (r.tree.update region.regionMeta).2.Sublist r.tree.tree.items :=
    RegionTree.update_snd_sublist
  -- the region's id is no item's, as every item is cached
  have hfresh : ∀ x ∈ r.tree.tree.items, x.id ≠ region.getID := by
    intro x hx hid
    obtain ⟨rx, hvx, -⟩ := h.item x hx
    rw [hid, hnone] at hvx
    cases hvx
  -- an item left by the update has no overlap's id
  have hleft : ∀ b ∈ r.tree.tree.items, (∀ x ∈ (r.tree.update region.regionMeta).2, b.startKey ≠ x.startKey) →
      b.id ∉ (r.tree.update region.regionMeta).2.map Region.id := by
    intro b hb hkeys hid
    obtain ⟨x, hx, hxid⟩ := List.mem_map.mp hid
    exact hkeys x hx (by rw [h.eq_of_id hb (hsub.subset hx) hxid.symm])
  have hnoop : ∀ x ∈ (r.tree.update region.regionMeta).2,
      ({ r with tree := (r.tree.update region.regionMeta).1 } : RegionsInfo).tree.remove x =
        (r.tree.update region.regionMeta).1 := by
    intro x hx
    refine RegionTree.remove_eq_self_of_id fun b hb hid => ?_
    rcases (RegionTree.mem_update_of_sorted h.sorted).mp hb with rfl | ⟨hbt, hkeys, -⟩
    · exact hfresh x (hsub.subset hx) hid.symm
    · exact hleft b hbt hkeys (hid ▸ List.mem_map_of_mem hx)
  obtain ⟨r₂, hrun, hv₂, htree₂, hview₂⟩ := removeOverlaps_spec
    (r := { r with tree := (r.tree.update region.regionMeta).1 }) h.regions
    (fun x hx => h.item x (hsub.subset hx)) (h.nodup_ids.sublist (hsub.map _)) hnoop
  obtain ⟨hv₃, hview₃, htree₃⟩ := putRegion_view hv₂ region
  refine ⟨_, (r.tree.update region.regionMeta).2, ?_, ⟨hv₃, ?_, fun b hb => ?_⟩, fun id ri hri => ?_,
    fun x hx => ?_⟩
  · simp only [RegionsInfo.setRegion, hnone, RegionsInfo.addRegion, hrun]
  · rw [htree₃, htree₂]
    exact RegionTree.sorted_update h.sorted
  · rw [htree₃, htree₂] at hb
    rw [hview₃, hview₂]
    rcases (RegionTree.mem_update_of_sorted h.sorted).mp hb with rfl | ⟨hbt, hkeys, -⟩
    · exact ⟨region, Function.update_self .., rfl⟩
    · rw [Function.update_of_ne (hfresh b hbt)]
      simp only [getRegion_withTree, if_neg (hleft b hbt hkeys)]
      exact h.item b hbt
  · rw [hview₃, hview₂] at hri
    by_cases hid : id = region.getID
    · exact .inl hid
    · rw [Function.update_of_ne hid] at hri
      simp only [getRegion_withTree] at hri
      split_ifs at hri
      exact .inr hri
  · obtain ⟨ri, hri, -⟩ := h.item x (hsub.subset hx)
    exact ⟨ri, hri⟩

/-! ## Runs -/

/-- A call on `RegionsInfo`. -/
inductive Op where
  | setRegion (region : RegionInfo)
  | removeRegion (regionID : UInt64)

/-- One call. `RemoveRegion` is called on the region cached under the id, as
its callers do, and not at all when there is none. -/
def Op.apply (r : RegionsInfo) : Op → Option RegionsInfo
  | .setRegion region => (r.setRegion region).map Prod.fst
  | .removeRegion regionID => some ((r.getRegion regionID).elim r r.removeRegion)

/-- A sequence of calls; `none` if one of them panics. -/
def run (r : RegionsInfo) (ops : List Op) : Option RegionsInfo := ops.foldlM Op.apply r

/-- The step lemma: a call keeps the invariant and does not panic. -/
theorem Consistent.apply (h : Consistent r) (op : Op)
    (hop : ∀ region, op = .setRegion region → region.WellFormed) :
    ∃ r', op.apply r = some r' ∧ Consistent r' := by
  cases op with
  | setRegion region =>
      obtain ⟨r', overlaps, hset, h', -⟩ := h.setRegion (hop region rfl)
      exact ⟨r', by simp [Op.apply, hset], h'⟩
  | removeRegion id =>
      cases hri : r.getRegion id with
      | none => exact ⟨r, by simp [Op.apply, hri], h⟩
      | some ri => exact ⟨r.removeRegion ri, by simp [Op.apply, hri], (h.removeRegion hri).1⟩

/-- The run lemma. -/
theorem consistent_run (h : Consistent r) (ops : List Op)
    (hops : ∀ region, Op.setRegion region ∈ ops → region.WellFormed) :
    ∃ r', run r ops = some r' ∧ Consistent r' := by
  induction ops generalizing r with
  | nil => exact ⟨r, rfl, h⟩
  | cons op ops ih =>
      obtain ⟨r₁, hstep, h₁⟩ := h.apply op (fun region hop => hops region (hop ▸ List.mem_cons_self))
      obtain ⟨r', hrun, h'⟩ := ih h₁ (fun region hr => hops region (List.mem_cons_of_mem _ hr))
      refine ⟨r', ?_, h'⟩
      simp only [run, List.foldlM_cons, hstep, Option.bind_eq_bind, Option.bind_some]
      exact hrun

/-- From `NewRegionsInfo`, along any sequence of `SetRegion` calls on
well-formed regions and `RemoveRegion` calls on cached regions, no call panics
and every state reached has: (a) pairwise disjoint ranges in the tree; (b) the
same ids in the tree and the id map, with the same metas; (c) in each store
map exactly the cached regions whose leader, follower, learner or pending peer
is on that store; (d) in every `regionMap`, totals that are the sums over its
entries and an `ids` slice that lists its keys, each at the index its entry
records. -/
theorem regionsInfo_consistent (ops : List Op)
    (hops : ∀ region, Op.setRegion region ∈ ops → region.WellFormed) :
    ∃ r, run newRegionsInfo ops = some r ∧
      r.tree.tree.items.Pairwise (fun a b => ¬ Meets a b) ∧
      (∀ id, (∃ x ∈ r.tree.tree.items, x.id = id) ↔ id ∈ r.regions.m) ∧
      (∀ x ∈ r.tree.tree.items,
        ∃ e, r.regions.m.lookup x.id = some e ∧ e.regionInfo.regionMeta = x) ∧
      (∀ s id ri,
        (r.leaders.get s id = some ri ↔ r.getRegion id = some ri ∧ ri.LeaderOn s) ∧
        (r.followers.get s id = some ri ↔ r.getRegion id = some ri ∧ ri.FollowerOn s) ∧
        (r.learners.get s id = some ri ↔ r.getRegion id = some ri ∧ ri.LearnerOn s) ∧
        (r.pendingPeers.get s id = some ri ↔ r.getRegion id = some ri ∧ ri.PendingOn s)) ∧
      (∀ rm, (rm = r.regions ∨ ∃ s, r.leaders.lookup s = some rm ∨
          r.followers.lookup s = some rm ∨ r.learners.lookup s = some rm ∨
          r.pendingPeers.lookup s = some rm) →
        rm.totalSize = total (fun e => e.regionInfo.approximateSize) rm.m ∧
        rm.totalKeys = total (fun e => e.regionInfo.approximateKeys) rm.m ∧
        rm.ids.Perm rm.m.keys ∧
        ∀ i (hi : i < rm.ids.length), (rm.m.lookup rm.ids[i]).map RegionEntry.pos = some i) := by
  obtain ⟨r, hrun, h⟩ := consistent_run consistent_newRegionsInfo ops hops
  -- every `regionMap` of the state is valid
  have hvalid : ∀ rm, (rm = r.regions ∨ ∃ s, r.leaders.lookup s = some rm ∨
      r.followers.lookup s = some rm ∨ r.learners.lookup s = some rm ∨
      r.pendingPeers.lookup s = some rm) → rm.Valid := by
    rintro rm (rfl | ⟨s, hs | hs | hs | hs⟩)
    · exact h.indexes.regions
    · exact h.indexes.leadersValid s rm hs
    · exact h.indexes.followersValid s rm hs
    · exact h.indexes.learnersValid s rm hs
    · exact h.indexes.pendingPeersValid s rm hs
  refine ⟨r, hrun, h.tree.wf.pairwise_disjoint, fun id => ?_, fun x hx => ?_,
    fun s id ri => ⟨h.indexes.leaders s id ri, h.indexes.followers s id ri,
      h.indexes.learners s id ri, h.indexes.pendingPeers s id ri⟩,
    fun rm hrm => ⟨(hvalid rm hrm).totalSize, (hvalid rm hrm).totalKeys, (hvalid rm hrm).ids_perm,
      (hvalid rm hrm).pos_ids⟩⟩
  · -- the ids of the tree are the keys of the id map
    rw [← AList.lookup_isSome]
    constructor
    · rintro ⟨x, hx, rfl⟩
      obtain ⟨ri, hri, -⟩ := h.tree.item x hx
      obtain ⟨e, he, -⟩ := Option.map_eq_some_iff.mp hri
      rw [he]
      rfl
    · intro hid
      obtain ⟨e, he⟩ := Option.isSome_iff_exists.mp hid
      have hri : r.getRegion id = some e.regionInfo := by simp [getRegion, RegionMap.get, he]
      exact ⟨e.regionInfo.regionMeta, h.tree.stored id _ hri, h.indexes.getID hri⟩
  · obtain ⟨ri, hri, rfl⟩ := h.tree.item x hx
    obtain ⟨e, he, rfl⟩ := Option.map_eq_some_iff.mp hri
    exact ⟨e, he, rfl⟩

/-- A one-peer region over the whole key space, as a cluster is bootstrapped
with. -/
def firstRegion : RegionInfo :=
  ⟨⟨1, [], [], ⟨1, 1⟩, [⟨1, 1, false⟩]⟩, some ⟨1, 1, false⟩, [], [], 0, 0, 0, 0⟩

theorem wellFormed_firstRegion : firstRegion.WellFormed :=
  ⟨.inr rfl, by decide, by decide, ⟨⟨1, 1, false⟩, rfl, by decide⟩, fun _ hp => absurd hp List.not_mem_nil⟩

/-- `firstRegion` split at key `m`: region `2` takes the left half, region
`1` keeps the right one, both at version `2`. -/
def splitLeft : RegionInfo :=
  newRegionInfo ⟨2, [], [109], ⟨1, 2⟩, [⟨2, 1, false⟩]⟩ (some ⟨2, 1, false⟩)

def splitRight : RegionInfo :=
  newRegionInfo ⟨1, [109], [], ⟨1, 2⟩, [⟨1, 1, false⟩]⟩ (some ⟨1, 1, false⟩)

theorem wellFormed_splitLeft : splitLeft.WellFormed :=
  ⟨.inl (by decide), by decide, by decide, ⟨⟨2, 1, false⟩, rfl, by decide⟩, fun _ hp => absurd hp List.not_mem_nil⟩

theorem wellFormed_splitRight : splitRight.WellFormed :=
  ⟨.inr rfl, by decide, by decide, ⟨⟨1, 1, false⟩, rfl, by decide⟩, fun _ hp => absurd hp List.not_mem_nil⟩

theorem wellFormed_of_mem_split {region : RegionInfo} (h : region ∈ [firstRegion, splitLeft, splitRight]) :
    region.WellFormed := by
  simp only [List.mem_cons, List.not_mem_nil, or_false] at h
  rcases h with rfl | rfl | rfl
  · exact wellFormed_firstRegion
  · exact wellFormed_splitLeft
  · exact wellFormed_splitRight

/-- The bootstrap region, then the two halves of its split: the left half
overlaps the whole range still cached, which `SetRegion` removes. -/
def splitRun : List Op := [.setRegion firstRegion, .setRegion splitLeft, .setRegion splitRight]

theorem regionsInfo_consistent_splitRun :
    (∀ region, Op.setRegion region ∈ splitRun → region.WellFormed) ∧
      ∃ r, run newRegionsInfo splitRun = some r ∧ r.tree.tree.items.Pairwise (fun a b => ¬ Meets a b) := by
  have hops : ∀ region, Op.setRegion region ∈ splitRun → region.WellFormed := by
    intro region hr
    apply wellFormed_of_mem_split
    simpa only [splitRun, List.mem_cons, Op.setRegion.injEq, List.not_mem_nil, or_false] using hr
  obtain ⟨r, hrun, hdisjoint, -⟩ := regionsInfo_consistent splitRun hops
  exact ⟨hops, r, hrun, hdisjoint⟩

end RegionsInfo

end PlacementDriver
