import PlacementDriver.Schedulers.RandomMerge

/-!
# Scheduling by namespace

`scheduleByNamespace` (in `server/namespace_cluster.go`) runs a scheduler
once per namespace, in a random order, each time on a `namespaceCluster`: the
cluster seen through one namespace. That view keeps the stores of the
namespace, and the regions of the namespace whose peers are all on them, for
`GetStores`, `GetStore`, `GetRegion` and `RandLeaderRegion`. The other methods
fall through to the whole cluster; among them `GetAdjacentRegions` and
`AllocPeer`.

Go iterates the map of the namespace's stores in no fixed order. The model
keeps them in the order of the whole cluster's `GetStores`.

## Main results

* `getRegion_namespaceCluster`, `randLeaderRegion_namespaceCluster`,
  `getStore_namespaceCluster`: what the view returns is in its namespace.
* `scheduleByNamespace_eq_some`: an operator of `scheduleByNamespace` comes
  from one namespace's view.
* `random_merge_leaves_namespace`: the random-merge scheduler, run on the
  view of one namespace, merges a region of it into an adjacent region of
  another namespace and adds peers on that namespace's stores.
-/

namespace PlacementDriver

namespace Server

open Schedule Schedulers Metapb

/-- `namespaceCluster`; the field `namespace` is `namespaceName`, as
`namespace` is a Lean keyword. -/
structure NamespaceCluster where
  cluster : Cluster
  classifier : Classifier
  namespaceName : String
  stores : List StoreInfo

/-- `newNamespaceCluster(c, classifier, namespace)`. -/
def newNamespaceCluster (c : Cluster) (classifier : Classifier) (namespaceName : String) : NamespaceCluster :=
  ⟨c, classifier, namespaceName, c.getStores.filter fun s => classifier.getStoreNamespace s == namespaceName⟩

/-- `randRegionMaxRetry`. -/
def randRegionMaxRetry : Nat := 10

namespace NamespaceCluster

variable (c : NamespaceCluster)

/-- `checkRegion(region)`: the region is in the namespace, and so are the
stores of all its peers. -/
def checkRegion (region : RegionInfo) : Bool :=
  c.classifier.getRegionNamespace region == c.namespaceName &&
    region.getPeers.all fun p => c.stores.any (·.getId == p.storeId)

/-- `RandLeaderRegion(storeID, opts...)` at its call numbered `call`: up to
`randRegionMaxRetry` draws from the whole cluster, the `i`-th being its call
numbered `call * randRegionMaxRetry + i`. -/
def randLeaderRegion (storeID : UInt64) (opts : List (RegionInfo → Bool)) (call : Nat) : Option RegionInfo :=
  go randRegionMaxRetry
where
  go : Nat → Option RegionInfo
    | 0 => none
    | n + 1 =>
      match c.cluster.randLeaderRegion storeID opts (call * randRegionMaxRetry + (randRegionMaxRetry - (n + 1))) with
      | none => none
      | some r => if c.checkRegion r then some r else go n

/-- `GetStore(id)`. -/
def getStore (id : UInt64) : Option StoreInfo := c.stores.find? (·.getId == id)

/-- `GetRegion(id)`. -/
def getRegion (id : UInt64) : Option RegionInfo := (c.cluster.getRegion id).filter c.checkRegion

/-- The view as a `schedule.Cluster`: the methods it does not override are
the whole cluster's. -/
def toCluster : Cluster :=
  { c.cluster with
    getStores := c.stores
    getStore := c.getStore
    getRegion := c.getRegion
    randLeaderRegion := c.randLeaderRegion }

end NamespaceCluster

/-- `scheduleByNamespace(cluster, classifier, scheduler)`, where `perm` is
`rand.Perm(len(namespaces))`. -/
def scheduleByNamespace (cluster : Cluster) (classifier : Classifier) (schedule : Cluster → Option (List Operator))
    (perm : List Nat) : Option (List Operator) :=
  let namespaces := classifier.getAllNamespaces
  perm.findSome? fun i =>
    namespaces[i]?.bind fun namespaceName => schedule (newNamespaceCluster cluster classifier namespaceName).toCluster

/-! ## What the view returns is in its namespace -/

section

variable {cluster : Cluster} {classifier : Classifier} {namespaceName : String}

theorem mem_stores_namespaceCluster {s : StoreInfo}
    (h : s ∈ (newNamespaceCluster cluster classifier namespaceName).stores) :
    s ∈ cluster.getStores ∧ classifier.getStoreNamespace s = namespaceName := by
  obtain ⟨hmem, hns⟩ := List.mem_filter.mp h
  exact ⟨hmem, by simpa using hns⟩

/-- `GetStore` of the view returns a store of the namespace. -/
theorem getStore_namespaceCluster {id : UInt64} {s : StoreInfo}
    (h : (newNamespaceCluster cluster classifier namespaceName).toCluster.getStore id = some s) :
    s.getId = id ∧ s ∈ cluster.getStores ∧ classifier.getStoreNamespace s = namespaceName := by
  have hfind := List.find?_some h
  exact ⟨by simpa using hfind, mem_stores_namespaceCluster (List.mem_of_find?_eq_some h)⟩

/-- `GetRegion` of the view returns a region of the namespace whose peers are
on stores of the namespace. -/
theorem getRegion_namespaceCluster {id : UInt64} {region : RegionInfo}
    (h : (newNamespaceCluster cluster classifier namespaceName).toCluster.getRegion id = some region) :
    cluster.getRegion id = some region ∧
      (newNamespaceCluster cluster classifier namespaceName).checkRegion region = true := by
  obtain ⟨hget, hcheck⟩ := Option.filter_eq_some_iff.mp h
  exact ⟨hget, hcheck⟩

/-- `RandLeaderRegion` of the view returns a region of the whole cluster's
that passes `checkRegion`. -/
theorem randLeaderRegion_namespaceCluster {storeID : UInt64} {opts : List (RegionInfo → Bool)} {call : Nat}
    {region : RegionInfo}
    (h : (newNamespaceCluster cluster classifier namespaceName).toCluster.randLeaderRegion storeID opts call =
      some region) :
    (∃ i, cluster.randLeaderRegion storeID opts i = some region) ∧
      (newNamespaceCluster cluster classifier namespaceName).checkRegion region = true := by
  -- each retry either returns a checked region of the whole cluster or retries
  suffices ∀ n, NamespaceCluster.randLeaderRegion.go (newNamespaceCluster cluster classifier namespaceName)
      storeID opts call n = some region →
      (∃ i, cluster.randLeaderRegion storeID opts i = some region) ∧
        (newNamespaceCluster cluster classifier namespaceName).checkRegion region = true from this _ h
  intro n
  induction n with
  | zero => intro h; cases h
  | succ n ih =>
    intro h
    unfold NamespaceCluster.randLeaderRegion.go at h
    split at h
    · cases h
    · rename_i r hr
      split_ifs at h with hcheck
      · cases h
        exact ⟨⟨_, hr⟩, hcheck⟩
      · exact ih h

end

/-- An operator of `scheduleByNamespace` comes from the scheduler run on the
view of one of the classifier's namespaces. -/
theorem scheduleByNamespace_eq_some {cluster : Cluster} {classifier : Classifier}
    {schedule : Cluster → Option (List Operator)} {perm : List Nat} {ops : List Operator}
    (h : scheduleByNamespace cluster classifier schedule perm = some ops) :
    ∃ namespaceName ∈ classifier.getAllNamespaces,
      schedule (newNamespaceCluster cluster classifier namespaceName).toCluster = some ops := by
  obtain ⟨i, -, hi⟩ := List.exists_of_findSome?_eq_some h
  obtain ⟨namespaceName, hname, hops⟩ := Option.bind_eq_some_iff.mp hi
  exact ⟨namespaceName, List.mem_of_getElem? hname, hops⟩

/-! ## A random merge across namespaces -/

/-- Stores 1 to 3 are in `ns1`, the others in `ns2`; a region starting at
`[1]` is in `ns1`, any other in `ns2`. Two regions merge only within one
namespace. -/
def nsClassifier : Classifier where
  getAllNamespaces := ["ns1", "ns2", defaultNamespace]
  getStoreNamespace s := if s.getId ≤ 3 then "ns1" else "ns2"
  getRegionNamespace r := if r.regionMeta.startKey == [1] then "ns1" else "ns2"
  isNamespaceExist name := ["ns1", "ns2", defaultNamespace].contains name
  allowMerge one other :=
    (if one.regionMeta.startKey == [1] then "ns1" else "ns2") ==
      (if other.regionMeta.startKey == [1] then "ns1" else "ns2")

/-- A region of `ns1` over `[[1], [2])` on stores 1, 2, 3, led from store 1. -/
def nsSource : RegionInfo :=
  ⟨⟨1, [1], [2], ⟨1, 1⟩, [⟨1, 1, false⟩, ⟨2, 2, false⟩, ⟨3, 3, false⟩]⟩, some ⟨1, 1, false⟩, [], [], 0, 0, 1, 1⟩

/-- Its right neighbour, a region of `ns2` over `[[2], [3])` on stores 4, 5, 6. -/
def nsTarget : RegionInfo :=
  ⟨⟨2, [2], [3], ⟨1, 1⟩, [⟨4, 4, false⟩, ⟨5, 5, false⟩, ⟨6, 6, false⟩]⟩, some ⟨4, 4, false⟩, [], [], 0, 0, 1, 1⟩

/-- The region cache with both regions. -/
def nsCache : RegionsInfo :=
  (((RegionsInfo.newRegionsInfo.setRegion nsSource).bind (·.1.setRegion nsTarget)).map (·.1)).getD
    RegionsInfo.newRegionsInfo

/-- The whole cluster: six up stores, every draw 0, new peers get the id of
their store plus 10. -/
def nsCluster : Cluster :=
  Cluster.ofRegions defaultScheduleOption 0 ((List.range 6).map fun i => upStore (i + 1).toUInt64 []) nsCache
    (fun _ _ => 0) (fun storeId => some ⟨storeId + 10, storeId, false⟩) false (fun _ => false)

/-- The random-merge scheduler run by namespace, `ns1` first: it schedules on
the view of `ns1`, and its operators are for the `ns2` region as well, and add
peers on the `ns2` stores 4, 5 and 6. -/
theorem random_merge_leaves_namespace :
    scheduleByNamespace nsCluster nsClassifier (newRandomMergeScheduler.schedule · 0 0) [0, 1, 2] =
        newRandomMergeScheduler.schedule (newNamespaceCluster nsCluster nsClassifier "ns1").toCluster 0 0 ∧
      (scheduleByNamespace nsCluster nsClassifier (newRandomMergeScheduler.schedule · 0 0) [0, 1, 2]).map
          (·.map fun op => (op.regionID, op.steps)) =
        some [(1, [.addPeer 4 14, .addPeer 5 15, .addPeer 6 16, .transferLeader 1 4, .removePeer 1, .removePeer 2,
            .removePeer 3, .mergeRegion nsSource.regionMeta nsTarget.regionMeta false]),
          (2, [.mergeRegion nsSource.regionMeta nsTarget.regionMeta true])] ∧
      nsClassifier.getRegionNamespace nsTarget = "ns2" ∧
      ((nsCluster.getStores.filter fun s => s.getId ≥ 4).map nsClassifier.getStoreNamespace) = ["ns2", "ns2", "ns2"] := by
  decide

end Server

end PlacementDriver
