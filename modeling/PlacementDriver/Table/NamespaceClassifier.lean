import PlacementDriver.Schedule.Cluster
import PlacementDriver.Table.Codec
import PlacementDriver.Verified.GoMap

/-!
# The table namespace classifier

`table/namespace_classifier.go`. A namespace binds a name to some tables, some
stores and perhaps the meta keys; a region is in the namespace of the table its
start key belongs to, a store in the namespace that lists it, and everything
else in `global`.

The classifier keeps the namespaces in a Go map from name to a pointer. Every
mutator but `CreateNamespace` finds the namespace by name, makes its own check,
changes the namespace through the pointer and then calls `putNamespaceLocked`,
which saves it to the KV store and only then writes it into the map. The change
through the pointer is in the map already, so a failed save leaves it there:
`mutateNamespace_of_not_saved`. The outcomes of the KV save and of
`idAlloc.Alloc` are inputs of the calls.

The existence checks keep each table and each store in at most one namespace
and the meta keys in at most one (`Unique`), over every run, failed saves
included. The queries loop over the map and return at the first namespace that
matches; `range` visits the map in an order Go leaves open, so the queries take
that order as an argument.

## Main results

* `Unique.call`, `Unique.run`: every call keeps the claims exclusive.
* `call_of_error`: an error other than a failed save of a changed namespace
  leaves the map as it was.
* `Unique.getStoreNamespaceIn_perm`, `Unique.getRegionNamespaceIn_perm`: the
  store query, and the region query of a key that is no meta key, give one
  answer in every iteration order.
-/

namespace PlacementDriver.Table

open Verified.GoMap

/-- `Namespace`. `TableIDs` and `StoreIDs` are Go sets, maps whose values are
always `true`; `Meta` is `isMeta`. -/
structure Namespace where
  id : UInt64
  name : String
  tableIDs : AList (fun _ : Int64 => Bool)
  storeIDs : AList (fun _ : UInt64 => Bool)
  isMeta : Bool

/-- `NewNamespace`. -/
def newNamespace (id : UInt64) (name : String) : Namespace := ⟨id, name, ∅, ∅, false⟩

namespace Namespace

def addTableID (ns : Namespace) (tableID : Int64) : Namespace :=
  { ns with tableIDs := ns.tableIDs.insert tableID true }

def addStoreID (ns : Namespace) (storeID : UInt64) : Namespace :=
  { ns with storeIDs := ns.storeIDs.insert storeID true }

/-- `_, ok := ns.TableIDs[tableID]`. -/
def hasTableID (ns : Namespace) (tableID : Int64) : Bool := decide (tableID ∈ ns.tableIDs)

/-- `_, ok := ns.StoreIDs[storeID]`. -/
def hasStoreID (ns : Namespace) (storeID : UInt64) : Bool := decide (storeID ∈ ns.storeIDs)

/-- The meta keys as an item a namespace claims. -/
def holdsMeta (ns : Namespace) (_ : Unit) : Bool := ns.isMeta

end Namespace

/-- `namespacesInfo`: the map from name to namespace. -/
structure NamespacesInfo where
  namespaces : AList (fun _ : String => Namespace)

def newNamespacesInfo : NamespacesInfo := ⟨∅⟩

/-- The errors the classifier returns. -/
inductive NamespaceError
  /-- "Name should be 0-9, a-z or A-Z" -/
  | invalidName
  /-- "%s is reserved as default namespace" -/
  | reservedName (name : String)
  /-- "Duplicate namespace Name" -/
  | duplicateName
  /-- the error of `idAlloc.Alloc` -/
  | allocFailed
  /-- the error of the KV save -/
  | saveFailed
  /-- "invalid namespace Name %s, not found" -/
  | notFound (name : String)
  /-- "Table ID already exists in this cluster" -/
  | tableIDExists
  /-- "Table ID %d is not belong to %s" -/
  | tableIDNotBelong (tableID : Int64) (name : String)
  /-- "meta is already set" -/
  | metaAlreadySet
  /-- "meta is not belong to %s" -/
  | metaNotBelong (name : String)
  /-- "Store ID already exists in this namespace" -/
  | storeIDExists
  /-- "Store ID %d is not belong to %s" -/
  | storeIDNotBelong (storeID : UInt64) (name : String)
  deriving DecidableEq, Repr

/-- `regexp.MustCompile("^\w+$").MatchString`: one or more ASCII letters,
digits or underscores. -/
def isWord (name : String) : Bool :=
  !name.isEmpty && name.toList.all fun c => c.isAlphanum || c == '_'

namespace NamespacesInfo

variable (info : NamespacesInfo)

def getNamespaceByName (name : String) : Option Namespace := info.namespaces.lookup name

def setNamespace (item : Namespace) : NamespacesInfo := ⟨info.namespaces.insert item.name item⟩

def isTableIDExist (tableID : Int64) : Bool :=
  info.namespaces.entries.any fun e => e.2.hasTableID tableID

def isStoreIDExist (storeID : UInt64) : Bool :=
  info.namespaces.entries.any fun e => e.2.hasStoreID storeID

def isMetaExist : Bool := info.namespaces.entries.any fun e => e.2.isMeta

/-- `putNamespaceLocked`: the save first, the map after. `saved` is the outcome
of the KV save, `true` when the classifier has no KV store. -/
def putNamespaceLocked (ns : Namespace) (saved : Bool) : NamespacesInfo × Option NamespaceError :=
  if saved then (info.setNamespace ns, none) else (info, some .saveFailed)

/-- The map once the namespace found under `name` has been changed to `n`
through its pointer. -/
def changeInPlace (name : String) (n : Namespace) : NamespacesInfo :=
  ⟨info.namespaces.insert name n⟩

/-- The mutators other than `CreateNamespace`: find the namespace, make the
mutator's check, change the namespace in place, put it. -/
def mutateNamespace (name : String) (check : Namespace → Option NamespaceError)
    (change : Namespace → Namespace) (saved : Bool) : NamespacesInfo × Option NamespaceError :=
  match info.getNamespaceByName name with
  | none => (info, some (.notFound name))
  | some n =>
    match check n with
    | some err => (info, some err)
    | none => (info.changeInPlace name (change n)).putNamespaceLocked (change n) saved

/-- `CreateNamespace`; `alloc` is the outcome of `idAlloc.Alloc`. -/
def createNamespace (name : String) (alloc : Option UInt64) (saved : Bool) :
    NamespacesInfo × Option NamespaceError :=
  if !isWord name then (info, some .invalidName)
  else if name = defaultNamespace then (info, some (.reservedName name))
  else if (info.getNamespaceByName name).isSome then (info, some .duplicateName)
  else
    match alloc with
    | none => (info, some .allocFailed)
    | some id => info.putNamespaceLocked (newNamespace id name) saved

def addNamespaceTableID (name : String) (tableID : Int64) (saved : Bool) :=
  info.mutateNamespace name (fun _ => if info.isTableIDExist tableID then some .tableIDExists else none)
    (·.addTableID tableID) saved

def removeNamespaceTableID (name : String) (tableID : Int64) (saved : Bool) :=
  info.mutateNamespace name
    (fun n => if n.hasTableID tableID then none else some (.tableIDNotBelong tableID name))
    (fun n => { n with tableIDs := n.tableIDs.erase tableID }) saved

def addMetaToNamespace (name : String) (saved : Bool) :=
  info.mutateNamespace name (fun _ => if info.isMetaExist then some .metaAlreadySet else none)
    (fun n => { n with isMeta := true }) saved

def removeMeta (name : String) (saved : Bool) :=
  info.mutateNamespace name (fun n => if n.isMeta then none else some (.metaNotBelong name))
    (fun n => { n with isMeta := false }) saved

def addNamespaceStoreID (name : String) (storeID : UInt64) (saved : Bool) :=
  info.mutateNamespace name (fun _ => if info.isStoreIDExist storeID then some .storeIDExists else none)
    (·.addStoreID storeID) saved

def removeNamespaceStoreID (name : String) (storeID : UInt64) (saved : Bool) :=
  info.mutateNamespace name
    (fun n => if n.hasStoreID storeID then none else some (.storeIDNotBelong storeID name))
    (fun n => { n with storeIDs := n.storeIDs.erase storeID }) saved

end NamespacesInfo

/-- `GetStoreNamespace`, where `range` visits the namespaces in `order`. -/
def getStoreNamespaceIn (order : List (Σ _ : String, Namespace)) (storeInfo : StoreInfo) : String :=
  match order.find? (fun e => e.2.hasStoreID storeInfo.getId) with
  | some e => e.1
  | none => defaultNamespace

/-- `GetRegionNamespace`, where `range` visits the namespaces in `order`. -/
def getRegionNamespaceIn (order : List (Σ _ : String, Namespace)) (regionInfo : RegionInfo) :
    String :=
  let isMeta := Key.isMeta regionInfo.regionMeta.startKey
  let tableID := Key.tableID regionInfo.regionMeta.startKey
  if tableID == 0 && !isMeta then defaultNamespace
  else
    match order.find? (fun e => e.2.hasTableID tableID || (isMeta && e.2.isMeta)) with
    | some e => e.1
    | none => defaultNamespace

/-- `tableNamespaceClassifier` as the `namespace.Classifier` the schedulers
see, with `order` the order in which its loops visit the map. -/
def tableNamespaceClassifier (info : NamespacesInfo) (order : List (Σ _ : String, Namespace)) :
    Classifier where
  getAllNamespaces := order.map (·.1) ++ [defaultNamespace]
  getStoreNamespace := getStoreNamespaceIn order
  getRegionNamespace := getRegionNamespaceIn order
  isNamespaceExist name := (info.getNamespaceByName name).isSome
  allowMerge one other := Key.tableID one.regionMeta.startKey == Key.tableID other.regionMeta.startKey

/-- The calls of the classifier that change it, with the outcomes of the
allocator and of the KV save. -/
inductive NamespaceCall
  | createNamespace (name : String) (alloc : Option UInt64) (saved : Bool)
  | addNamespaceTableID (name : String) (tableID : Int64) (saved : Bool)
  | removeNamespaceTableID (name : String) (tableID : Int64) (saved : Bool)
  | addMetaToNamespace (name : String) (saved : Bool)
  | removeMeta (name : String) (saved : Bool)
  | addNamespaceStoreID (name : String) (storeID : UInt64) (saved : Bool)
  | removeNamespaceStoreID (name : String) (storeID : UInt64) (saved : Bool)

namespace NamespacesInfo

variable (info : NamespacesInfo)

def call : NamespaceCall → NamespacesInfo × Option NamespaceError
  | .createNamespace name alloc saved => info.createNamespace name alloc saved
  | .addNamespaceTableID name tableID saved => info.addNamespaceTableID name tableID saved
  | .removeNamespaceTableID name tableID saved => info.removeNamespaceTableID name tableID saved
  | .addMetaToNamespace name saved => info.addMetaToNamespace name saved
  | .removeMeta name saved => info.removeMeta name saved
  | .addNamespaceStoreID name storeID saved => info.addNamespaceStoreID name storeID saved
  | .removeNamespaceStoreID name storeID saved => info.removeNamespaceStoreID name storeID saved

/-- The map after the calls, each made whatever the ones before returned. -/
def run (calls : List NamespaceCall) : NamespacesInfo :=
  calls.foldl (fun info c => (info.call c).1) info

/-! ## The map after a call -/

variable {info}

theorem setNamespace_changeInPlace {name : String} {n : Namespace} (h : n.name = name) :
    (info.changeInPlace name n).setNamespace n = info.changeInPlace name n := by
  unfold setNamespace changeInPlace
  rw [h, AList.insert_insert]

/-- What a mutator can do: fail before any change, or change the namespace in
place, whether the save then succeeds or not. -/
theorem mutateNamespace_cases {name : String} {check : Namespace → Option NamespaceError}
    {change : Namespace → Namespace} (saved : Bool)
    (hkeyed : ∀ name n, info.getNamespaceByName name = some n → n.name = name)
    (hname : ∀ n, (change n).name = n.name) :
    (∃ e, info.mutateNamespace name check change saved = (info, some e) ∧
      (e = .notFound name ∨ ∃ n, check n = some e)) ∨
    ∃ n, info.getNamespaceByName name = some n ∧ check n = none ∧
      info.mutateNamespace name check change saved =
        (info.changeInPlace name (change n), if saved then none else some .saveFailed) := by
  unfold mutateNamespace
  split
  · exact .inl ⟨_, rfl, .inl rfl⟩
  · next n hn =>
    split
    · next e hc => exact .inl ⟨e, rfl, .inr ⟨n, hc⟩⟩
    · next hc =>
      refine .inr ⟨n, hn, hc, ?_⟩
      have hn' : (change n).name = name := (hname n).trans (hkeyed name n hn)
      cases saved
      · rfl
      · simp only [putNamespaceLocked, if_true, setNamespace_changeInPlace hn']

/-- The defect of the error path: a mutator whose save fails leaves the map
changed, as a successful save would have. -/
theorem mutateNamespace_of_not_saved {name : String} {check : Namespace → Option NamespaceError}
    {change : Namespace → Namespace} {n : Namespace}
    (hn : info.getNamespaceByName name = some n) (hc : check n = none) :
    info.mutateNamespace name check change false =
      (info.changeInPlace name (change n), some .saveFailed) := by
  unfold mutateNamespace
  rw [hn]
  simp only [hc, putNamespaceLocked, Bool.false_eq_true, if_false]

theorem createNamespace_of_error {name : String} {alloc : Option UInt64} {saved : Bool}
    {e : NamespaceError} (he : (info.createNamespace name alloc saved).2 = some e) :
    (info.createNamespace name alloc saved).1 = info := by
  unfold createNamespace at he ⊢
  split_ifs at he ⊢
  · rfl
  · rfl
  · rfl
  · cases alloc with
    | none => rfl
    | some id =>
      cases saved
      · rfl
      · simp [putNamespaceLocked] at he

/-! ## Exclusive claims -/

/-- What the existence checks keep: each namespace is under its own name, and
each table, each store and the meta keys are claimed by at most one
namespace. -/
structure Unique (info : NamespacesInfo) : Prop where
  keyed : ∀ name n, info.getNamespaceByName name = some n → n.name = name
  tableOwner : Exclusive Namespace.hasTableID info.namespaces
  storeOwner : Exclusive Namespace.hasStoreID info.namespaces
  metaOwner : Exclusive Namespace.holdsMeta info.namespaces

theorem unique_newNamespacesInfo : newNamespacesInfo.Unique where
  keyed name n h := by
    rw [getNamespaceByName, newNamespacesInfo, AList.lookup_empty] at h
    cases h
  tableOwner := exclusive_empty
  storeOwner := exclusive_empty
  metaOwner := exclusive_empty

/-- A change of one namespace that claims, besides what it claimed, only
what no namespace claims keeps the claims exclusive. -/
theorem Unique.changeInPlace (h : info.Unique) {name : String} {n n' : Namespace}
    (hn : info.getNamespaceByName name = some n) (hname : n'.name = n.name)
    (htable : ClaimsFree Namespace.hasTableID info.namespaces n n')
    (hstore : ClaimsFree Namespace.hasStoreID info.namespaces n n')
    (hmeta : ClaimsFree Namespace.holdsMeta info.namespaces n n') :
    (info.changeInPlace name n').Unique where
  keyed y v hy := by
    rcases lookup_insert_eq_some.mp hy with ⟨rfl, rfl⟩ | ⟨-, hy⟩
    · exact hname.trans (h.keyed _ n hn)
    · exact h.keyed y v hy
  tableOwner := h.tableOwner.insert_of_lookup hn htable
  storeOwner := h.storeOwner.insert_of_lookup hn hstore
  metaOwner := h.metaOwner.insert_of_lookup hn hmeta

/-- A new namespace claims nothing. -/
theorem Unique.setNamespace_new (h : info.Unique) (id : UInt64) (name : String) :
    (info.setNamespace (newNamespace id name)).Unique where
  keyed y v hy := by
    rcases lookup_insert_eq_some.mp hy with ⟨rfl, rfl⟩ | ⟨-, hy⟩
    · rfl
    · exact h.keyed y v hy
  tableOwner := h.tableOwner.insert fun _ hc => by simp [newNamespace, Namespace.hasTableID] at hc
  storeOwner := h.storeOwner.insert fun _ hc => by simp [newNamespace, Namespace.hasStoreID] at hc
  metaOwner := h.metaOwner.insert fun _ hc => by simp [newNamespace, Namespace.holdsMeta] at hc

theorem Unique.createNamespace (h : info.Unique) (name : String) (alloc : Option UInt64)
    (saved : Bool) : (info.createNamespace name alloc saved).1.Unique := by
  unfold NamespacesInfo.createNamespace
  split_ifs
  · exact h
  · exact h
  · exact h
  · cases alloc with
    | none => exact h
    | some id =>
      cases saved
      · exact h
      · exact h.setNamespace_new id name

/-- A mutator keeps the claims exclusive when every change it can make keeps
the name and claims, besides the old claims, only free items. -/
theorem Unique.mutateNamespace (h : info.Unique) {name : String}
    {check : Namespace → Option NamespaceError} {change : Namespace → Namespace} (saved : Bool)
    (hname : ∀ n, (change n).name = n.name)
    (hfree : ∀ n, info.getNamespaceByName name = some n → check n = none →
      ClaimsFree Namespace.hasTableID info.namespaces n (change n) ∧
      ClaimsFree Namespace.hasStoreID info.namespaces n (change n) ∧
      ClaimsFree Namespace.holdsMeta info.namespaces n (change n)) :
    (info.mutateNamespace name check change saved).1.Unique := by
  rcases mutateNamespace_cases saved h.keyed hname with ⟨e, he, -⟩ | ⟨n, hn, hc, he⟩
  · rw [he]
    exact h
  · rw [he]
    obtain ⟨htable, hstore, hmeta⟩ := hfree n hn hc
    exact h.changeInPlace hn (hname n) htable hstore hmeta

/-! ## The claims each mutator changes -/

theorem hasTableID_addTableID (n : Namespace) (tableID t : Int64) :
    (n.addTableID tableID).hasTableID t = (decide (t = tableID) || n.hasTableID t) := by
  simp [Namespace.addTableID, Namespace.hasTableID, AList.mem_insert]

theorem hasStoreID_addStoreID (n : Namespace) (storeID s : UInt64) :
    (n.addStoreID storeID).hasStoreID s = (decide (s = storeID) || n.hasStoreID s) := by
  simp [Namespace.addStoreID, Namespace.hasStoreID, AList.mem_insert]

theorem isTableIDExist_eq_false {tableID : Int64} (h : info.isTableIDExist tableID = false) :
    ∀ y v, info.namespaces.lookup y = some v → v.hasTableID tableID = false := by
  intro y v hy
  by_contra hv
  have hex : info.isTableIDExist tableID = true :=
    (any_entries_iff info.namespaces (·.hasTableID tableID)).mpr ⟨y, v, hy, by simpa using hv⟩
  rw [h] at hex
  cases hex

theorem isStoreIDExist_eq_false {storeID : UInt64} (h : info.isStoreIDExist storeID = false) :
    ∀ y v, info.namespaces.lookup y = some v → v.hasStoreID storeID = false := by
  intro y v hy
  by_contra hv
  have hex : info.isStoreIDExist storeID = true :=
    (any_entries_iff info.namespaces (·.hasStoreID storeID)).mpr ⟨y, v, hy, by simpa using hv⟩
  rw [h] at hex
  cases hex

theorem isMetaExist_eq_false (h : info.isMetaExist = false) :
    ∀ y v, info.namespaces.lookup y = some v → v.holdsMeta () = false := by
  intro y v hy
  by_contra hv
  have hex : info.isMetaExist = true :=
    (any_entries_iff info.namespaces (·.isMeta)).mpr ⟨y, v, hy, by simpa [Namespace.holdsMeta] using hv⟩
  rw [h] at hex
  cases hex

theorem Unique.addNamespaceTableID (h : info.Unique) (name : String) (tableID : Int64)
    (saved : Bool) : (info.addNamespaceTableID name tableID saved).1.Unique := by
  refine h.mutateNamespace saved (fun _ => rfl) fun n _ hc => ⟨?_, claimsFree_of_imp fun _ => id,
    claimsFree_of_imp fun _ => id⟩
  have hfree : info.isTableIDExist tableID = false := by
    by_contra hex
    simp [hex] at hc
  intro t ht
  rw [hasTableID_addTableID, Bool.or_eq_true, decide_eq_true_eq] at ht
  rcases ht with rfl | ht
  · exact .inr (isTableIDExist_eq_false hfree)
  · exact .inl ht

theorem Unique.removeNamespaceTableID (h : info.Unique) (name : String) (tableID : Int64)
    (saved : Bool) : (info.removeNamespaceTableID name tableID saved).1.Unique := by
  refine h.mutateNamespace saved (fun _ => rfl) fun n _ _ => ⟨claimsFree_of_imp fun t ht => ?_,
    claimsFree_of_imp fun _ => id, claimsFree_of_imp fun _ => id⟩
  simp only [Namespace.hasTableID, decide_eq_true_eq, AList.mem_erase] at ht ⊢
  exact ht.2

theorem Unique.addMetaToNamespace (h : info.Unique) (name : String) (saved : Bool) :
    (info.addMetaToNamespace name saved).1.Unique := by
  refine h.mutateNamespace saved (fun _ => rfl) fun n _ hc => ⟨claimsFree_of_imp fun _ => id,
    claimsFree_of_imp fun _ => id, fun _ _ => .inr ?_⟩
  have hfree : info.isMetaExist = false := by
    by_contra hex
    simp [hex] at hc
  exact isMetaExist_eq_false hfree

theorem Unique.removeMeta (h : info.Unique) (name : String) (saved : Bool) :
    (info.removeMeta name saved).1.Unique := by
  refine h.mutateNamespace saved (fun _ => rfl) fun n _ _ => ⟨claimsFree_of_imp fun _ => id,
    claimsFree_of_imp fun _ => id, claimsFree_of_imp fun _ hm => ?_⟩
  simp [Namespace.holdsMeta] at hm

theorem Unique.addNamespaceStoreID (h : info.Unique) (name : String) (storeID : UInt64)
    (saved : Bool) : (info.addNamespaceStoreID name storeID saved).1.Unique := by
  refine h.mutateNamespace saved (fun _ => rfl) fun n _ hc => ⟨claimsFree_of_imp fun _ => id, ?_,
    claimsFree_of_imp fun _ => id⟩
  have hfree : info.isStoreIDExist storeID = false := by
    by_contra hex
    simp [hex] at hc
  intro s hs
  rw [hasStoreID_addStoreID, Bool.or_eq_true, decide_eq_true_eq] at hs
  rcases hs with rfl | hs
  · exact .inr (isStoreIDExist_eq_false hfree)
  · exact .inl hs

theorem Unique.removeNamespaceStoreID (h : info.Unique) (name : String) (storeID : UInt64)
    (saved : Bool) : (info.removeNamespaceStoreID name storeID saved).1.Unique := by
  refine h.mutateNamespace saved (fun _ => rfl) fun n _ _ => ⟨claimsFree_of_imp fun _ => id,
    claimsFree_of_imp fun s hs => ?_, claimsFree_of_imp fun _ => id⟩
  simp only [Namespace.hasStoreID, decide_eq_true_eq, AList.mem_erase] at hs ⊢
  exact hs.2

/-! ## Runs -/

theorem Unique.call (h : info.Unique) : ∀ c, (info.call c).1.Unique
  | .createNamespace name alloc saved => h.createNamespace name alloc saved
  | .addNamespaceTableID name tableID saved => h.addNamespaceTableID name tableID saved
  | .removeNamespaceTableID name tableID saved => h.removeNamespaceTableID name tableID saved
  | .addMetaToNamespace name saved => h.addMetaToNamespace name saved
  | .removeMeta name saved => h.removeMeta name saved
  | .addNamespaceStoreID name storeID saved => h.addNamespaceStoreID name storeID saved
  | .removeNamespaceStoreID name storeID saved => h.removeNamespaceStoreID name storeID saved

theorem Unique.run (h : info.Unique) (calls : List NamespaceCall) : (info.run calls).Unique := by
  induction calls generalizing info with
  | nil => exact h
  | cons c calls ih => exact ih (h.call c)

/-- A mutator that fails other than by the save fails before any change. -/
theorem mutateNamespace_of_error {name : String} {check : Namespace → Option NamespaceError}
    {change : Namespace → Namespace} {saved : Bool} {e : NamespaceError}
    (hkeyed : ∀ name n, info.getNamespaceByName name = some n → n.name = name)
    (hname : ∀ n, (change n).name = n.name)
    (he : (info.mutateNamespace name check change saved).2 = some e) (hne : e ≠ .saveFailed) :
    (info.mutateNamespace name check change saved).1 = info := by
  rcases mutateNamespace_cases saved hkeyed hname with ⟨e', he', -⟩ | ⟨n, -, -, he'⟩
  · rw [he']
  · rw [he'] at he
    cases saved
    · exact absurd (Option.some_inj.mp he).symm hne
    · cases he

/-- A call that fails other than by the save of a changed namespace leaves
the map as it was. -/
theorem call_of_error (h : info.Unique) :
    ∀ (c : NamespaceCall) {e}, (info.call c).2 = some e → e ≠ .saveFailed → (info.call c).1 = info
  | .createNamespace _ _ _, _, he, _ => createNamespace_of_error he
  | .addNamespaceTableID _ _ _, _, he, hne =>
    mutateNamespace_of_error h.keyed (fun _ => rfl) he hne
  | .removeNamespaceTableID _ _ _, _, he, hne =>
    mutateNamespace_of_error h.keyed (fun _ => rfl) he hne
  | .addMetaToNamespace _ _, _, he, hne =>
    mutateNamespace_of_error h.keyed (fun _ => rfl) he hne
  | .removeMeta _ _, _, he, hne =>
    mutateNamespace_of_error h.keyed (fun _ => rfl) he hne
  | .addNamespaceStoreID _ _ _, _, he, hne =>
    mutateNamespace_of_error h.keyed (fun _ => rfl) he hne
  | .removeNamespaceStoreID _ _ _, _, he, hne =>
    mutateNamespace_of_error h.keyed (fun _ => rfl) he hne

/-! ## The queries in every iteration order -/

theorem Unique.getStoreNamespaceIn_perm (h : info.Unique) {order : List (Σ _ : String, Namespace)}
    (hp : order.Perm info.namespaces.entries) (storeInfo : StoreInfo) :
    getStoreNamespaceIn order storeInfo = getStoreNamespaceIn info.namespaces.entries storeInfo := by
  unfold getStoreNamespaceIn
  rw [h.storeOwner.find?_perm storeInfo.getId hp]

theorem Unique.getRegionNamespaceIn_perm (h : info.Unique) {order : List (Σ _ : String, Namespace)}
    (hp : order.Perm info.namespaces.entries) (regionInfo : RegionInfo)
    (hmeta : Key.isMeta regionInfo.regionMeta.startKey = false) :
    getRegionNamespaceIn order regionInfo = getRegionNamespaceIn info.namespaces.entries regionInfo := by
  unfold getRegionNamespaceIn
  simp only [hmeta, Bool.false_and, Bool.or_false]
  rw [h.tableOwner.find?_perm _ hp]

/-! ## A save that fails, and a meta key claimed twice -/

/-- The map after `CreateNamespace("ns1")`. -/
def ns1Created : NamespacesInfo := newNamespacesInfo.run [.createNamespace "ns1" (some 1) true]

/-- Table `0` added to `ns1` and the meta keys to `ns2`: each check passes, as
no namespace held either. -/
def metaSplit : NamespacesInfo :=
  newNamespacesInfo.run [.createNamespace "ns1" (some 1) true, .createNamespace "ns2" (some 2) true,
    .addNamespaceTableID "ns1" 0 true, .addMetaToNamespace "ns2" true]

/-- A region that starts at the meta key `m`, whose table id is `0`. -/
def metaRegion : RegionInfo :=
  ⟨⟨1, [0x6d, 0, 0, 0, 0, 0, 0, 0, 0xf8], [], ⟨1, 1⟩, [⟨1, 1, false⟩]⟩, some ⟨1, 1, false⟩, [], [], 0, 0,
    0, 0⟩

theorem namespace_change_survives_failed_save :
    (∀ info : NamespacesInfo, info.Unique → ∀ calls, (info.run calls).Unique ∧
      ∀ (order : List (Σ _ : String, Namespace)) (storeInfo : StoreInfo),
        order.Perm (info.run calls).namespaces.entries →
        getStoreNamespaceIn order storeInfo =
          getStoreNamespaceIn (info.run calls).namespaces.entries storeInfo) ∧
    (ns1Created.addNamespaceTableID "ns1" 1 false).2 = some .saveFailed ∧
    (ns1Created.addNamespaceTableID "ns1" 1 false).1 ≠ ns1Created ∧
    metaSplit.Unique ∧ metaSplit.namespaces.entries.reverse.Perm metaSplit.namespaces.entries ∧
    getRegionNamespaceIn metaSplit.namespaces.entries metaRegion = "ns2" ∧
    getRegionNamespaceIn metaSplit.namespaces.entries.reverse metaRegion = "ns1" := by
  have hchanged : (ns1Created.addNamespaceTableID "ns1" 1 false).1 ≠ ns1Created := by
    intro h
    have hkeys := congrArg (fun info => (info.getNamespaceByName "ns1").map (·.tableIDs.keys)) h
    revert hkeys
    decide
  refine ⟨fun info h calls => ⟨h.run calls, fun order storeInfo hp =>
    (h.run calls).getStoreNamespaceIn_perm hp storeInfo⟩, by decide, hchanged,
    unique_newNamespacesInfo.run _, List.reverse_perm _, by decide, by decide⟩

end NamespacesInfo

end PlacementDriver.Table
