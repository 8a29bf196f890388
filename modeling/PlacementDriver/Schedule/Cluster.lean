import PlacementDriver.Core.RegionsInfo
import PlacementDriver.Verified.Binary64

/-!
# Stores, schedule options and the `schedule.Cluster` interface

The checkers and schedulers of `server/schedule` see the cluster through the
interface `schedule.Cluster`. It is modelled as a record of the methods they
call. `clusterInfo` implements it over the region cache (`Cluster.ofRegions`).
`namespaceCluster` builds one from another and overrides some methods
(`Server/NamespaceCluster`).

Random choices are inputs. A method that draws at random takes the number of
the call, and the draws of `rand.Intn` are a function of the call and the
retry.

`core.StoreInfo` keeps the fields the filters read. `DownTime()` is
`now - LastHeartbeatTS`, where `now` is a field of the cluster.
-/

namespace PlacementDriver

namespace Metapb

/-- `metapb.StoreLabel`. -/
structure StoreLabel where
  key : String
  value : String
deriving DecidableEq, Repr

/-- `metapb.StoreState`. -/
inductive StoreState
  | up
  | offline
  | tombstone
deriving DecidableEq, Repr

/-- `metapb.Store`. -/
structure Store where
  id : UInt64
  address : String
  state : StoreState
  labels : List StoreLabel
  version : String
deriving DecidableEq, Repr

end Metapb

namespace Pdpb

/-- The fields of `pdpb.StoreStats` the filters and the store checks read. -/
structure StoreStats where
  isBusy : Bool
  sendingSnapCount : UInt32
  receivingSnapCount : UInt32
  applyingSnapCount : UInt32
  storeId : UInt64
  capacity : UInt64
  available : UInt64
deriving DecidableEq, Repr

end Pdpb

open Metapb

/-- `core.StoreInfo`, with the fields the filters read. -/
structure StoreInfo where
  store : Metapb.Store
  stats : Pdpb.StoreStats
  blocked : Bool
  pendingPeerCount : Int
  /-- `LastHeartbeatTS`, in nanoseconds -/
  lastHeartbeatTS : Int
deriving DecidableEq, Repr

namespace StoreInfo

variable (s : StoreInfo)

/-- `GetId`. -/
def getId : UInt64 := s.store.id

/-- `IsUp`. -/
def isUp : Bool := s.store.state == .up

/-- `IsOffline`. -/
def isOffline : Bool := s.store.state == .offline

/-- `IsTombstone`. -/
def isTombstone : Bool := s.store.state == .tombstone

/-- `DownTime()`, at the time `now`. -/
def downTime (now : Int) : Int := now - s.lastHeartbeatTS

/-- `storeDisconnectDuration`: twenty seconds. -/
def storeDisconnectDuration : Int := 20 * 1000000000

/-- `IsDisconnected`. -/
def isDisconnected (now : Int) : Bool := decide (s.downTime now > storeDisconnectDuration)

/-- `AvailableRatio()`. -/
def availableRatio : Float :=
  if s.stats.capacity == 0 then 0 else s.stats.available.toFloat / s.stats.capacity.toFloat

/-- `IsLowSpace(lowSpaceRatio)`; `Stats` is never nil in the model. -/
def isLowSpace (lowSpaceRatio : Float) : Bool := s.availableRatio < 1 - lowSpaceRatio

/-- The zero `time.Time`, in nanoseconds from the Unix epoch. -/
def zeroTime : Int := -62135596800 * 1000000000

/-- `strings.EqualFold`, with ASCII case folding. -/
def equalFold (a b : String) : Bool := a.toLower == b.toLower

/-- One round of `MergeLabels`: the first label with the key, up to case,
takes the new value; with none, the label is appended. -/
def mergeLabel : List StoreLabel → StoreLabel → List StoreLabel
  | [], newLabel => [newLabel]
  | label :: labels, newLabel =>
    if equalFold label.key newLabel.key then { label with value := newLabel.value } :: labels
    else label :: mergeLabel labels newLabel

/-- `MergeLabels(labels)`, on the store's labels. -/
def mergeLabels (labels newLabels : List StoreLabel) : List StoreLabel := newLabels.foldl mergeLabel labels

/-- `GetLabelValue(key)`: the value of the first label whose key is `key` up
to case, `""` with none. -/
def getLabelValue (key : String) : String :=
  match s.store.labels.find? (fun label => equalFold label.key key) with
  | some label => label.value
  | none => ""

/-- `CompareLocation(other, labels)`: the first level of `labels` at which
both stores have a value and the values differ, `-1` with none. -/
def compareLocation (other : StoreInfo) (labels : List String) : Int :=
  let differs key :=
    let v1 := s.getLabelValue key
    let v2 := other.getLabelValue key
    v1 != "" && v2 != "" && !equalFold v1 v2
  match labels.findIdx? differs with
  | some i => i
  | none => -1

end StoreInfo

/-- `core.NewStoreInfo(store)`: empty stats, never heard from. -/
def newStoreInfo (store : Metapb.Store) : StoreInfo :=
  ⟨store, ⟨false, 0, 0, 0, 0, 0, 0⟩, false, 0, StoreInfo.zeroTime⟩

/-- An up, idle store with the given labels, heard from at time 0. -/
def upStore (id : UInt64) (labels : List StoreLabel) : StoreInfo :=
  ⟨⟨id, "", .up, labels, ""⟩, ⟨false, 0, 0, 0, id, 0, 0⟩, false, 0, 0⟩

/-- `LabelPropertyConfig`: the labels of each label property. -/
abbrev LabelPropertyConfig := List (String × List StoreLabel)

/-- `RejectLeader`. -/
def rejectLeader : String := "reject-leader"

/-- The options of `scheduleOption` the modelled code reads. -/
structure ScheduleOption where
  maxReplicas : Nat
  maxMergeRegionSize : UInt64
  maxMergeRegionKeys : UInt64
  /-- `MaxStoreDownTime`, in nanoseconds -/
  maxStoreDownTime : Int
  maxPendingPeerCount : UInt64
  maxSnapshotCount : UInt64
  labelProperty : LabelPropertyConfig
  /-- `LocationLabels` of the replication config -/
  locationLabels : List String
deriving DecidableEq, Repr

/-- The defaults of `ScheduleConfig.adjust`, with no label property. -/
def defaultScheduleOption : ScheduleOption where
  maxReplicas := 3
  maxMergeRegionSize := 20
  maxMergeRegionKeys := 200000
  maxStoreDownTime := 30 * 60 * 1000000000
  maxPendingPeerCount := 16
  maxSnapshotCount := 3
  labelProperty := []
  locationLabels := []

/-- `CheckLabelProperty(typ, labels)`: a label of the store is one of the
property's. -/
def ScheduleOption.checkLabelProperty (o : ScheduleOption) (typ : String) (labels : List StoreLabel) : Bool :=
  ((o.labelProperty.lookup typ).getD []).any fun cfg =>
    labels.any fun l => l.key == cfg.key && l.value == cfg.value

/-- The methods of `schedule.Cluster` the modelled code calls. -/
structure Cluster where
  opt : ScheduleOption
  /-- `time.Now()` -/
  now : Int
  getStores : List StoreInfo
  getStore : UInt64 → Option StoreInfo
  getRegion : UInt64 → Option RegionInfo
  /-- `RandLeaderRegion(storeID, opts...)`, at the call numbered by the last argument -/
  randLeaderRegion : UInt64 → List (RegionInfo → Bool) → Nat → Option RegionInfo
  getAdjacentRegions : RegionInfo → Option RegionInfo × Option RegionInfo
  allocPeer : UInt64 → Option Peer
  isRaftLearnerEnabled : Bool
  isRegionHot : UInt64 → Bool

/-- `CheckLabelProperty`, which `Cluster` takes from its options. -/
def Cluster.checkLabelProperty (c : Cluster) (typ : String) (labels : List StoreLabel) : Bool :=
  c.opt.checkLabelProperty typ labels

/-- `GetRegionStores(region)`: the known stores of the region's peers, in the
order of the peers, as `clusterInfo` finds them through `GetStore`. -/
def Cluster.getRegionStores (c : Cluster) (region : RegionInfo) : List StoreInfo :=
  region.getPeers.filterMap fun p => c.getStore p.storeId

/-- `core.HealthRegion()`: no down, pending or learner peer. -/
def healthRegion (region : RegionInfo) : Bool :=
  region.downPeers.isEmpty && region.pendingPeers.isEmpty && region.getLearners.isEmpty

/-- `randomRegionMaxRetry`. -/
def randomRegionMaxRetry : Nat := 10

/-- `randRegion(regions, opts...)`: up to `randomRegionMaxRetry` draws, the
`i`-th of `RandomRegion` being `draw i`. -/
def randRegion (regions : Option RegionMap) (opts : List (RegionInfo → Bool)) (draw : Nat → Nat) :
    Option RegionInfo :=
  go randomRegionMaxRetry
where
  go : Nat → Option RegionInfo
    | 0 => none
    | n + 1 =>
      match (regions.map (·.randomRegion (draw (randomRegionMaxRetry - (n + 1))))).join with
      | none => none
      | some region => if opts.all (· region) then some region else go n

/-- `clusterInfo` as a `schedule.Cluster`, over the region cache `regions` and
the stores `stores`; `draw c i` is the `i`-th draw of the `c`-th call of
`RandLeaderRegion`. -/
def Cluster.ofRegions (opt : ScheduleOption) (now : Int) (stores : List StoreInfo) (regions : RegionsInfo)
    (draw : Nat → Nat → Nat) (allocPeer : UInt64 → Option Peer) (isRaftLearnerEnabled : Bool)
    (isRegionHot : UInt64 → Bool) : Cluster where
  opt := opt
  now := now
  getStores := stores
  getStore id := stores.find? (·.getId == id)
  getRegion := regions.getRegion
  randLeaderRegion storeID opts call := randRegion (regions.leaders.lookup storeID) opts (draw call)
  getAdjacentRegions := regions.getAdjacentRegions
  allocPeer := allocPeer
  isRaftLearnerEnabled := isRaftLearnerEnabled
  isRegionHot := isRegionHot

/-! ## Namespace classifiers -/

/-- `namespace.DefaultNamespace`. -/
def defaultNamespace : String := "global"

/-- The methods of `namespace.Classifier` the modelled code calls. -/
structure Classifier where
  getAllNamespaces : List String
  getStoreNamespace : StoreInfo → String
  getRegionNamespace : RegionInfo → String
  isNamespaceExist : String → Bool
  allowMerge : RegionInfo → RegionInfo → Bool

/-- `namespace.DefaultClassifier`: everything is in `global`. -/
def defaultClassifier : Classifier where
  getAllNamespaces := [defaultNamespace]
  getStoreNamespace _ := defaultNamespace
  getRegionNamespace _ := defaultNamespace
  isNamespaceExist name := name == defaultNamespace
  allowMerge _ _ := true

/-! ## Store filters -/

/-- `StoreStateFilter`. -/
structure StoreStateFilter where
  transferLeader : Bool
  moveRegion : Bool
deriving DecidableEq, Repr

namespace StoreStateFilter

variable (f : StoreStateFilter) (opt : ScheduleOption) (now : Int) (store : StoreInfo)

/-- `filterMoveRegion`. -/
def filterMoveRegion : Bool :=
  store.stats.isBusy ||
    (opt.maxPendingPeerCount > 0 && decide (store.pendingPeerCount > opt.maxPendingPeerCount.toNat)) ||
    store.stats.sendingSnapCount.toUInt64 > opt.maxSnapshotCount ||
    store.stats.receivingSnapCount.toUInt64 > opt.maxSnapshotCount ||
    store.stats.applyingSnapCount.toUInt64 > opt.maxSnapshotCount

/-- `FilterSource`: the store cannot be a source. -/
def filterSource : Bool :=
  store.isTombstone || decide (store.downTime now > opt.maxStoreDownTime) ||
    (f.transferLeader && (store.isDisconnected now || store.blocked)) ||
    (f.moveRegion && filterMoveRegion opt store)

/-- `FilterTarget`: the store cannot be a target. -/
def filterTarget : Bool :=
  store.isTombstone || store.isOffline || decide (store.downTime now > opt.maxStoreDownTime) ||
    (f.transferLeader && (store.isDisconnected now || store.blocked || store.stats.isBusy ||
      opt.checkLabelProperty rejectLeader store.store.labels)) ||
    (f.moveRegion && filterMoveRegion opt store)

end StoreStateFilter

/-- `replicaBaseScore`. -/
def replicaBaseScore : Nat := 100

open Verified.Binary64 in
/-- `DistinctScore(labels, stores, other)`: a `float64` sum with a term
`replicaBaseScore ^ (len(labels) - index - 1)` for each other store that
differs from `other` at level `index`. A float64 holds each term exactly for
up to twelve labels; each sum is rounded to binary64 as the addition is. -/
def distinctScore (labels : List String) (stores : List StoreInfo) (other : StoreInfo) : Int :=
  stores.foldl (fun (score : Int) s =>
    if s.getId == other.getId then score
    else
      let index := s.compareLocation other labels
      if index != -1 then
        roundInt (score + roundInt (replicaBaseScore ^ ((labels.length : Int) - index - 1).toNat))
      else score) 0

/-- The `Filter`s the modelled code builds, one case for each implementation
of the interface. -/
inductive StoreFilter
  /-- `NewExcludedFilter(sources, targets)` -/
  | excluded (sources targets : List UInt64)
  /-- `NewNamespaceFilter(classifier, namespace)` -/
  | inNamespace (classifier : Classifier) (ns : String)
  /-- A `StoreStateFilter` -/
  | storeState (f : StoreStateFilter)
  /-- `distinctScoreFilter`, with the stores other than the source and its
  `safeScore` -/
  | distinct (labels : List String) (stores : List StoreInfo) (safeScore : Int)

/-- `FilterTarget(opt, store)` of each filter. -/
def StoreFilter.filterTarget (opt : ScheduleOption) (now : Int) (store : StoreInfo) : StoreFilter → Bool
  | .excluded _ targets => targets.contains store.getId
  | .inNamespace classifier ns => classifier.getStoreNamespace store != ns
  | .storeState f => f.filterTarget opt now store
  | .distinct labels stores safeScore => decide (distinctScore labels stores store < safeScore)

/-- `FilterSource(opt, store)` of each filter. -/
def StoreFilter.filterSource (opt : ScheduleOption) (now : Int) (store : StoreInfo) : StoreFilter → Bool
  | .excluded sources _ => sources.contains store.getId
  | .inNamespace classifier ns => classifier.getStoreNamespace store != ns
  | .storeState f => f.filterSource opt now store
  | .distinct .. => false

/-- `NewDistinctScoreFilter(labels, stores, source)`: no target may score
lower against the other stores than the source does. -/
def newDistinctScoreFilter (labels : List String) (stores : List StoreInfo) (source : StoreInfo) : StoreFilter :=
  let newStores := stores.filter fun s => s.getId != source.getId
  .distinct labels newStores (distinctScore labels newStores source)

/-- `FilterTarget(opt, store, filters)`: some filter rejects the store as a
target. -/
def filterTarget (opt : ScheduleOption) (now : Int) (store : StoreInfo) (filters : List StoreFilter) : Bool :=
  filters.any (·.filterTarget opt now store)

/-- `RandomSelector`. -/
structure RandomSelector where
  filters : List StoreStateFilter

/-- `SelectSource`: a store no filter rejects as a source, the `n`-th modulo
their number (`rand.Int()%len(stores)`). -/
def RandomSelector.selectSource (s : RandomSelector) (opt : ScheduleOption) (now : Int)
    (stores : List StoreInfo) (n : Nat) : Option StoreInfo :=
  let candidates := stores.filter fun store => !s.filters.any (·.filterSource opt now store)
  if candidates.isEmpty then none else candidates[n % candidates.length]?

theorem RandomSelector.selectSource_mem {s : RandomSelector} {opt : ScheduleOption} {now : Int}
    {stores : List StoreInfo} {n : Nat} {store : StoreInfo} (h : s.selectSource opt now stores n = some store) :
    store ∈ stores := by
  dsimp only [selectSource] at h
  split_ifs at h
  exact (List.mem_filter.mp (List.mem_of_getElem? h)).1

end PlacementDriver
