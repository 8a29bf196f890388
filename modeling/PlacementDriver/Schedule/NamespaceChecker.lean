import PlacementDriver.Schedule.OperatorSimulation

/-!
# The namespace checker

`NamespaceChecker` (`server/schedule/namespace_checker.go`) keeps the peers
of a region on the stores of the region's namespace. The stores of the
namespace are those the namespace filter passes. The first peer of the region
on another store is moved, by `CreateMovePeerOperator`, to a store of the
namespace drawn at random among those with none of the region's peers that
the move-region state filter passes.

`RandomSelector.SelectTarget` draws with `rand.Int()`: the draw is the input
`draw`, taken modulo the number of candidates. The option
`IsNamespaceRelocationEnabled` is a field of `RelocationCluster`, the cluster
as the checker sees it. The metrics and the logging are left out.

A relocation makes progress. Carried out, its operator leaves the peers on
distinct stores and has one peer fewer outside the namespace: the peer moved
was outside, the new one is inside, and a store holds at most one peer of the
region. `misplacedPeers` is the measure the checker's operators lower.

## Main results

* `check_eq_some`: an operator of `Check` moves the first peer outside the
  namespace to a store of the namespace that the filters pass.
* `misplacedPeers_move`: such a move lowers `misplacedPeers` by one.
* `namespace_relocation_lowers_misplaced_peers`: carried out, an operator of
  `NewNamespaceChecker` runs to its end, keeps the peers on distinct stores
  and lowers `misplacedPeers` by one.
-/

namespace PlacementDriver

open Metapb

/-- `SelectTarget(opt, stores, filters...)`: a store no filter rejects as a
target, the `n`-th modulo their number (`rand.Int()%len(stores)`). -/
def RandomSelector.selectTarget (s : RandomSelector) (opt : ScheduleOption) (now : Int) (stores : List StoreInfo)
    (filters : List StoreFilter) (n : Nat) : Option StoreInfo :=
  let filters := filters ++ s.filters.map .storeState
  let candidates := stores.filter fun store => !filterTarget opt now store filters
  if candidates.isEmpty then none else candidates[n % candidates.length]?

namespace Schedule

/-- The cluster as the namespace checker sees it, with the option it reads
beyond those of `Cluster`. -/
structure RelocationCluster extends Cluster where
  isNamespaceRelocationEnabled : Bool

/-- `NamespaceChecker`; a nil classifier is `none`. -/
structure NamespaceChecker where
  cluster : RelocationCluster
  filters : List StoreStateFilter
  classifier : Option Classifier

/-- `NewNamespaceChecker(cluster, classifier)`. -/
def newNamespaceChecker (cluster : RelocationCluster) (classifier : Option Classifier) : NamespaceChecker :=
  ⟨cluster, [⟨false, true⟩], classifier⟩

namespace NamespaceChecker

variable (n : NamespaceChecker)

/-- `filter(stores, filters...)`: the stores no filter rejects as a target. -/
def filter (stores : List StoreInfo) (filters : List StoreFilter) : List StoreInfo :=
  stores.filter fun store => !PlacementDriver.filterTarget n.cluster.opt n.cluster.now store filters

/-- `getNamespaceStores(region)`, with the checker's classifier. -/
def getNamespaceStores (classifier : Classifier) (region : RegionInfo) : List StoreInfo :=
  let ns := classifier.getRegionNamespace region
  n.filter n.cluster.getStores [.inNamespace classifier ns]

/-- `isExists(stores, storeID)`. -/
def isExists (stores : List StoreInfo) (storeID : UInt64) : Bool := stores.any (·.store.id == storeID)

/-- `SelectBestStoreToRelocate(region, targets)`, with `draw` the draw of
`rand.Int()`: `0` with no candidate. -/
def selectBestStoreToRelocate (region : RegionInfo) (targets : List StoreInfo) (draw : Nat) : UInt64 :=
  let selector : RandomSelector := ⟨n.filters⟩
  match selector.selectTarget n.cluster.opt n.cluster.now targets [.excluded [] region.getStoreIds] draw with
  | none => 0
  | some target => target.getId

/-- `SelectBestPeerToRelocate(region, targets)`: a new peer on the store
drawn. -/
def selectBestPeerToRelocate (region : RegionInfo) (targets : List StoreInfo) (draw : Nat) : Option Peer :=
  let storeID := n.selectBestStoreToRelocate region targets draw
  if storeID == 0 then none else n.cluster.allocPeer storeID

/-- `Check(region)`, with `draw` the draw of `rand.Int()`. -/
def check (region : RegionInfo) (draw : Nat) : Option Operator :=
  if !n.cluster.isNamespaceRelocationEnabled then none
  else
    match n.classifier with
    | none => none
    -- with only one namespace every store is in it
    | some classifier =>
      if classifier.getAllNamespaces.length == 1 then none
      else
        let targetStores := n.getNamespaceStores classifier region
        if targetStores.length == 0 then none else go targetStores region.getPeers
where
  go (targetStores : List StoreInfo) : List Peer → Option Operator
    | [] => none
    | peer :: rest =>
      if isExists targetStores peer.storeId then go targetStores rest
      else
        match n.selectBestPeerToRelocate region targetStores draw with
        | none => none
        | some newPeer =>
          some (createMovePeerOperator "makeNamespaceRelocation" n.cluster.toCluster region opReplica peer.storeId
            newPeer.storeId newPeer.id n.cluster.now)

/-- The number of the region's peers on stores outside `targets`. -/
def misplacedPeers (targets : List StoreInfo) (region : RegionInfo) : Nat :=
  region.getPeers.countP fun p => !isExists targets p.storeId

/-! ## What `Check` returns -/

variable {n}

theorem isExists_iff {stores : List StoreInfo} {storeID : UInt64} :
    isExists stores storeID = true ↔ ∃ t ∈ stores, t.getId = storeID := by
  simp [isExists, StoreInfo.getId]

theorem mem_getNamespaceStores {classifier : Classifier} {region : RegionInfo} {t : StoreInfo} :
    t ∈ n.getNamespaceStores classifier region ↔
      t ∈ n.cluster.getStores ∧ classifier.getStoreNamespace t = classifier.getRegionNamespace region := by
  simp [getNamespaceStores, filter, PlacementDriver.filterTarget, StoreFilter.filterTarget]

theorem selectBestPeerToRelocate_eq_some {region : RegionInfo} {targets : List StoreInfo} {draw : Nat} {p : Peer}
    (h : n.selectBestPeerToRelocate region targets draw = some p) :
    ∃ t ∈ targets, t.getId ∉ region.getStoreIds ∧ (∀ f ∈ n.filters, f.filterTarget n.cluster.opt n.cluster.now t = false) ∧
      n.cluster.allocPeer t.getId = some p := by
  unfold selectBestPeerToRelocate selectBestStoreToRelocate at h
  cases ht : (⟨n.filters⟩ : RandomSelector).selectTarget n.cluster.opt n.cluster.now targets
      [.excluded [] region.getStoreIds] draw with
  | none => simp [ht] at h
  | some t =>
    simp only [ht] at h
    split_ifs at h with hzero
    -- the drawn store is one of the candidates
    unfold RandomSelector.selectTarget at ht
    dsimp only at ht
    split_ifs at ht
    obtain ⟨hmem, hpass⟩ := List.mem_filter.mp (List.mem_of_getElem? ht)
    simp only [PlacementDriver.filterTarget, List.any_append, List.any_cons, List.any_nil, StoreFilter.filterTarget,
      Bool.or_false, List.any_map, Function.comp_def, Bool.not_or, Bool.and_eq_true, Bool.not_eq_true'] at hpass
    refine ⟨t, hmem, by simpa using hpass.1, fun f hf => ?_, h⟩
    simpa using List.any_eq_false.mp hpass.2 f hf

theorem check_go_eq_some {region : RegionInfo} {draw : Nat} {targets : List StoreInfo}
    {op : Operator} : ∀ {peers : List Peer}, check.go n region draw targets peers = some op →
      ∃ pre peer post, peers = pre ++ peer :: post ∧ (∀ q ∈ pre, isExists targets q.storeId = true) ∧
        isExists targets peer.storeId = false ∧ ∃ p, n.selectBestPeerToRelocate region targets draw = some p ∧
          op = createMovePeerOperator "makeNamespaceRelocation" n.cluster.toCluster region opReplica peer.storeId
            p.storeId p.id n.cluster.now
  | [], h => by cases h
  | peer :: rest, h => by
    unfold check.go at h
    split_ifs at h with hin
    · obtain ⟨pre, q, post, rfl, hpre, hq⟩ := check_go_eq_some h
      refine ⟨peer :: pre, q, post, rfl, ?_, hq⟩
      intro x hx
      rcases List.mem_cons.mp hx with rfl | hx
      · exact hin
      · exact hpre x hx
    · cases hsel : n.selectBestPeerToRelocate region targets draw with
      | none => simp [hsel] at h
      | some p =>
        simp only [hsel, Option.some.injEq] at h
        exact ⟨[], peer, rest, rfl, by simp, by simpa using hin, p, rfl, h.symm⟩

/-- An operator of `Check` moves the first peer of the region on a store
outside the region's namespace to a store of the namespace with none of the
region's peers that the checker's filters pass. -/
theorem check_eq_some {region : RegionInfo} {draw : Nat} {op : Operator} (h : n.check region draw = some op) :
    ∃ classifier, n.classifier = some classifier ∧
      ∃ pre peer post, region.getPeers = pre ++ peer :: post ∧
        (∀ q ∈ pre, isExists (n.getNamespaceStores classifier region) q.storeId = true) ∧
        isExists (n.getNamespaceStores classifier region) peer.storeId = false ∧
        ∃ t ∈ n.getNamespaceStores classifier region, t.getId ∉ region.getStoreIds ∧
          (∀ f ∈ n.filters, f.filterTarget n.cluster.opt n.cluster.now t = false) ∧
          ∃ p, n.cluster.allocPeer t.getId = some p ∧
            op = createMovePeerOperator "makeNamespaceRelocation" n.cluster.toCluster region opReplica peer.storeId
              p.storeId p.id n.cluster.now := by
  unfold check at h
  split_ifs at h with hoff
  cases hcl : n.classifier with
  | none => simp [hcl] at h
  | some classifier =>
    simp only [hcl] at h
    split_ifs at h with hone hempty
    obtain ⟨pre, peer, post, hpeers, hpre, hout, p, hsel, rfl⟩ := check_go_eq_some h
    obtain ⟨t, ht, hfresh, hpass, halloc⟩ := selectBestPeerToRelocate_eq_some hsel
    exact ⟨classifier, rfl, pre, peer, post, hpeers, hpre, hout, t, ht, hfresh, hpass, p, halloc, rfl⟩

/-! ## Progress -/

/-- In a list whose keys are distinct, dropping the element of key `k`, on
which `P` holds, lowers the count of `P` by one. -/
theorem countP_filter_key_ne_add_one {α β : Type*} [DecidableEq β] {key : α → β} {P : α → Bool} {l : List α}
    {k : β} (hnodup : (l.map key).Nodup) (hmem : k ∈ l.map key) (hP : ∀ a ∈ l, key a = k → P a = true) :
    (l.filter fun a => key a != k).countP P + 1 = l.countP P := by
  rw [List.countP_eq_countP_filter_add l P (fun a => key a != k)]
  congr 1
  -- exactly one element has the key `k`, and `P` holds on it
  have hone : (l.filter fun a => !(key a != k)).length = 1 := by
    have hcount := List.count_eq_one_of_mem hnodup hmem
    rw [List.count_eq_countP, List.countP_map, List.countP_eq_length_filter] at hcount
    rw [← hcount]
    congr 1
    apply List.filter_congr
    intro a _
    simp [bne]
  have hall : (l.filter fun a => !(key a != k)).countP P = (l.filter fun a => !(key a != k)).length := by
    rw [List.countP_eq_length]
    intro a ha
    obtain ⟨ha, hk⟩ := List.mem_filter.mp ha
    exact hP a ha (by simpa using hk)
  rw [hall, hone]

variable {region : RegionInfo} {targets : List StoreInfo} {old : UInt64} {new : Peer}

/-- Moving the replica on `old`, outside `targets`, to a store of `targets`
lowers the region's misplaced peers by one. -/
theorem misplacedPeers_move (hr : region.Placed) (hold : old ∈ region.getStoreIds)
    (hout : isExists targets old = false) (hin : isExists targets new.storeId = true) :
    ((region.getPeers ++ [new]).filter (·.storeId != old)).countP (fun p => !isExists targets p.storeId) + 1 =
      misplacedPeers targets region := by
  have hnew : ([new].filter (·.storeId != old)).countP (fun p => !isExists targets p.storeId) = 0 := by
    simp [hin]
  rw [List.filter_append, List.countP_append, hnew, Nat.add_zero]
  exact countP_filter_key_ne_add_one hr.peerStores hold fun a _ ha => by simp [ha, hout]

/-- The move keeps the number of peers. -/
theorem length_filter_move (hr : region.Placed) (hold : old ∈ region.getStoreIds) (hne : new.storeId ≠ old) :
    ((region.getPeers ++ [new]).filter (·.storeId != old)).length = region.getPeers.length := by
  have h := countP_filter_key_ne_add_one (l := region.getPeers) (P := fun _ => true) hr.peerStores hold
    fun _ _ _ => rfl
  have hnew : ([new].filter (·.storeId != old)).length = 1 := by simp [hne]
  rw [List.countP_true] at h
  rw [List.filter_append, List.length_append, hnew]
  exact h

end NamespaceChecker

/-! ## The checker `NewNamespaceChecker` builds -/

section Relocation

open NamespaceChecker RegionInfo

variable {c : RelocationCluster} {classifier : Option Classifier} {region : RegionInfo} {draw : Nat}
  {op : Operator}

/-- `Check` of `NewNamespaceChecker` moves the first peer of the region on a
store outside the region's namespace (every peer before it is on a store of
the namespace) to a store of the namespace that holds none of the region's
peers and that the move-region state filter passes: not tombstone, offline,
down, busy, or over the snapshot and pending-peer limits. -/
theorem namespace_relocation_targets_namespace_store (hAlloc : ∀ s p, c.allocPeer s = some p → p.storeId = s)
    (h : (newNamespaceChecker c classifier).check region draw = some op) :
    ∃ cl, classifier = some cl ∧ ∃ pre peer post, region.getPeers = pre ++ peer :: post ∧
      (∀ q ∈ pre, ∃ t ∈ c.getStores, t.getId = q.storeId ∧ cl.getStoreNamespace t = cl.getRegionNamespace region) ∧
      (∀ t ∈ c.getStores, t.getId = peer.storeId → cl.getStoreNamespace t ≠ cl.getRegionNamespace region) ∧
      ∃ t ∈ c.getStores, cl.getStoreNamespace t = cl.getRegionNamespace region ∧ t.getId ∉ region.getStoreIds ∧
        (⟨false, true⟩ : StoreStateFilter).filterTarget c.opt c.now t = false ∧
        ∃ p, c.allocPeer t.getId = some p ∧
          op = createMovePeerOperator "makeNamespaceRelocation" c.toCluster region opReplica peer.storeId t.getId p.id
            c.now := by
  obtain ⟨cl, hcl, pre, peer, post, hpeers, hpre, hout, t, ht, hfresh, hpass, p, halloc, rfl⟩ := check_eq_some h
  obtain ⟨htmem, htns⟩ := mem_getNamespaceStores.mp ht
  refine ⟨cl, hcl, pre, peer, post, hpeers, fun q hq => ?_, fun t' ht' hid hns => ?_, t, htmem, htns, hfresh,
    hpass _ (List.mem_singleton_self _), p, halloc, by rw [hAlloc _ _ halloc]; rfl⟩
  · obtain ⟨t', ht', hid⟩ := isExists_iff.mp (hpre q hq)
    obtain ⟨ht'mem, ht'ns⟩ := mem_getNamespaceStores.mp ht'
    exact ⟨t', ht'mem, hid, ht'ns⟩
  · -- a store of the namespace on the peer's store would have found the peer inside
    have hin : isExists ((newNamespaceChecker c classifier).getNamespaceStores cl region) peer.storeId = true :=
      isExists_iff.mpr ⟨t', mem_getNamespaceStores.mpr ⟨ht', hns⟩, hid⟩
    rw [hout] at hin
    cases hin

/-- Carried out from a region whose peers sit on distinct stores and whose
leader is a voter, an operator of `NewNamespaceChecker`'s `Check` runs to its
end whenever the leader's store, should it be vacated, has a follower to take
over. It keeps the peers on distinct stores and their number, and leaves one
peer fewer outside the stores of the region's namespace. -/
theorem namespace_relocation_lowers_misplaced_peers (hAlloc : ∀ s p, c.allocPeer s = some p → p.storeId = s)
    (h : (newNamespaceChecker c classifier).check region draw = some op) (hr : region.Placed)
    (hleader : ∀ s, OperatorStep.removePeer s ∈ op.steps → region.LeaderOn s →
      (leaderTransferTarget c.toCluster region s).isSome) :
    ∃ cl, classifier = some cl ∧ ∃ r', runSteps region op.steps = some r' ∧ r'.Placed ∧
      r'.getPeers.length = region.getPeers.length ∧
      misplacedPeers ((newNamespaceChecker c classifier).getNamespaceStores cl region) r' + 1 =
        misplacedPeers ((newNamespaceChecker c classifier).getNamespaceStores cl region) region := by
  obtain ⟨cl, hcl, pre, peer, post, hpeers, -, hout, t, ht, hfresh, -, p, halloc, rfl⟩ := check_eq_some h
  have hstore : p.storeId = t.getId := hAlloc _ _ halloc
  have hnew : p.storeId ∉ region.getStoreIds := hstore ▸ hfresh
  have hold : peer.storeId ∈ region.getStoreIds := mem_getStoreIds.mpr ⟨peer, by simp [hpeers], rfl⟩
  have hin : isExists ((newNamespaceChecker c classifier).getNamespaceStores cl region) p.storeId = true :=
    isExists_iff.mpr ⟨t, ht, hstore.symm⟩
  obtain ⟨r', hrun, hpeers'⟩ :=
    runSteps_createMovePeerOperator hr hnew (hleader peer.storeId removePeer_mem_createMovePeerOperator)
  refine ⟨cl, hcl, r', hrun, hr.runSteps hrun, ?_, ?_⟩
  · rw [hpeers']
    exact length_filter_move hr hold fun heq => hnew (heq ▸ hold)
  · rw [misplacedPeers, hpeers']
    exact misplacedPeers_move hr hold hout hin

/-- Stores `1` and `2` are in namespace `a`, stores `3` and `4` and every
region in `b`. -/
def twoNamespaces : Classifier where
  getAllNamespaces := ["a", "b"]
  getStoreNamespace store := if store.getId ≤ 2 then "a" else "b"
  getRegionNamespace _ := "b"
  isNamespaceExist name := name == "a" || name == "b"
  allowMerge _ _ := true

/-- Four idle up stores, with relocation on and a peer with id `9` allocated
on any store. -/
def relocationCluster : RelocationCluster where
  toCluster := Cluster.ofRegions defaultScheduleOption 0 [upStore 1 [], upStore 2 [], upStore 3 [], upStore 4 []]
    RegionsInfo.newRegionsInfo (fun _ _ => 0) (fun storeId => some ⟨9, storeId, false⟩) false (fun _ => false)
  isNamespaceRelocationEnabled := true

theorem relocationCluster_allocPeer (s : UInt64) (p : Peer) (h : relocationCluster.allocPeer s = some p) :
    p.storeId = s := by
  cases h
  rfl

/-- A region of namespace `b` with peers on stores `1`, `2` and `3`, its
leader on store `3`. -/
def relocatedRegion : RegionInfo :=
  newRegionInfo ⟨1, [], [], ⟨1, 1⟩, [⟨1, 1, false⟩, ⟨2, 2, false⟩, ⟨3, 3, false⟩]⟩ (some ⟨3, 3, false⟩)

/-- The peer on store `1` moves to store `4`, the one store of `b` without a
peer of the region. -/
theorem check_relocatedRegion :
    (newNamespaceChecker relocationCluster (some twoNamespaces)).check relocatedRegion 0 =
      some (createMovePeerOperator "makeNamespaceRelocation" relocationCluster.toCluster relocatedRegion opReplica 1 4 9
        0) := by
  decide

theorem namespace_relocation_targets_namespace_store_relocatedRegion :
    ∃ cl, some twoNamespaces = some cl ∧ ∃ pre peer post, relocatedRegion.getPeers = pre ++ peer :: post ∧
      (∀ t ∈ relocationCluster.getStores, t.getId = peer.storeId →
        cl.getStoreNamespace t ≠ cl.getRegionNamespace relocatedRegion) := by
  obtain ⟨cl, hcl, pre, peer, post, hpeers, -, hout, -⟩ :=
    namespace_relocation_targets_namespace_store relocationCluster_allocPeer check_relocatedRegion
  exact ⟨cl, hcl, pre, peer, post, hpeers, hout⟩

theorem namespace_relocation_lowers_misplaced_peers_relocatedRegion :
    ∃ r', runSteps relocatedRegion (createMovePeerOperator "makeNamespaceRelocation" relocationCluster.toCluster
      relocatedRegion opReplica 1 4 9 0).steps = some r' ∧ r'.Placed := by
  have hr : relocatedRegion.Placed := ⟨by decide, ⟨3, 3, false⟩, rfl, by decide⟩
  have hleader : ∀ s, OperatorStep.removePeer s ∈ (createMovePeerOperator "makeNamespaceRelocation"
      relocationCluster.toCluster relocatedRegion opReplica 1 4 9 0).steps → relocatedRegion.LeaderOn s →
      (leaderTransferTarget relocationCluster.toCluster relocatedRegion s).isSome := by
    rintro s - ⟨p, hp, rfl⟩
    cases hp
    decide
  obtain ⟨-, -, r', hrun, hplaced, -⟩ :=
    namespace_relocation_lowers_misplaced_peers relocationCluster_allocPeer check_relocatedRegion hr hleader
  exact ⟨r', hrun, hplaced⟩

end Relocation

end Schedule

end PlacementDriver
