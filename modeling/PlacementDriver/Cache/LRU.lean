import PlacementDriver.Go.ContainerList

/-!
# `cache.LRU`

`LRU` (in `server/cache/lru.go`) keeps its items in a `container/list`, most
recently used at the front, and a Go map from key to the list element holding
the key's `*Item`. `Put` of a known key moves its element to the front and
writes the new value through the element's `*Item`; `Put` of a new key pushes
a new element and, when `maxCount != 0` and the list grew past `maxCount`,
removes the element at the back. `Get` moves the key's element to the front;
`Peek` does not.

An item's `Value` is an `interface{}`; its type is a parameter `β`. The map is
an `AList` from key to element (see `Go.ContainerList` for elements).

`Valid` is what the two structures keep in common: the map sends each key to
the one element of the list whose item has that key, and the list is no
longer than `maxCount` when that is positive. `view` reads the cache as a
list of pairs, most recently used first. The lemmas of this module say what
each operation does to `view` under `Valid`; `LRURefinement` compares that
with the reference model.
-/

namespace PlacementDriver.Cache

open Go

/-- `Item`: the cache entry. -/
structure Item (β : Type) where
  key : UInt64
  value : β
deriving DecidableEq, Repr

/-- `LRU`. -/
structure LRU (β : Type) where
  maxCount : Int
  ll : ContainerList (Item β)
  cache : AList (fun _ : UInt64 => Nat)

namespace LRU

variable {β : Type}

/-- `newLRU(maxCount)`. -/
def newLRU (maxCount : Int) : LRU β := ⟨maxCount, ContainerList.new, ∅⟩

/-- `removeElement`: remove the element, then delete the key of its item. -/
def removeElement (c : LRU β) (ele : Nat) : LRU β :=
  let ll := c.ll.remove ele
  match ll.value ele with
  | some kv => { c with ll := ll, cache := c.cache.erase kv.key }
  | none => { c with ll := ll }

/-- `removeOldest`. -/
def removeOldest (c : LRU β) : LRU β :=
  match c.ll.back with
  | some ele => c.removeElement ele
  | none => c

/-- `getAndRemoveOldest`. -/
def getAndRemoveOldest (c : LRU β) : LRU β × Option (UInt64 × β) :=
  match c.ll.back with
  | some ele => (c.removeElement ele, (c.ll.value ele).map (fun kv => (kv.key, kv.value)))
  | none => (c, none)

/-- The first half of `Put` for a new key: push a new element and map the key
to it. -/
def pushNew (c : LRU β) (key : UInt64) (value : β) : LRU β :=
  let pushed := c.ll.pushFront ⟨key, value⟩
  { c with ll := pushed.1, cache := c.cache.insert key pushed.2 }

/-- `Put`. -/
def put (c : LRU β) (key : UInt64) (value : β) : LRU β :=
  match c.cache.lookup key with
  | some ele =>
      -- `c.ll.MoveToFront(ele)`, then `ele.Value.(*Item).Value = value`
      { c with ll := (c.ll.moveToFront ele).modifyValue ele (fun kv => { kv with value := value }) }
  | none =>
      let c := c.pushNew key value
      if c.maxCount ≠ 0 ∧ (c.ll.len : Int) > c.maxCount then c.removeOldest else c

/-- `Get`: the value, if the key is cached, after moving it to the front. -/
def get (c : LRU β) (key : UInt64) : LRU β × Option β :=
  match c.cache.lookup key with
  | some ele =>
      let ll := c.ll.moveToFront ele
      ({ c with ll := ll }, (ll.value ele).map Item.value)
  | none => (c, none)

/-- `Peek`. -/
def peek (c : LRU β) (key : UInt64) : Option β :=
  (c.cache.lookup key).bind (fun ele => (c.ll.value ele).map Item.value)

/-- `contains`. -/
def contains (c : LRU β) (key : UInt64) : Bool := decide (key ∈ c.cache)

/-- `Remove`. -/
def remove (c : LRU β) (key : UInt64) : LRU β :=
  match c.cache.lookup key with
  | some ele => c.removeElement ele
  | none => c

/-- `Elems`: copies of the items, front to back. -/
def elems (c : LRU β) : List (Item β) := c.ll.entries.map Prod.snd

/-- `Len`. -/
def len (c : LRU β) : Nat := c.ll.len

/-! ## The invariant and the view -/

/-- The cache as pairs, most recently used first. -/
def view (c : LRU β) : List (UInt64 × β) := c.ll.entries.map (fun x => (x.2.key, x.2.value))

/-- The map sends each key to the element of the list whose item has it. -/
def CacheAgrees (c : LRU β) : Prop :=
  ∀ k ele, c.cache.lookup k = some ele ↔ ∃ kv, (ele, kv) ∈ c.ll.entries ∧ kv.key = k

/-- The map and the list hold the same keys, each key once, and the list is no
longer than a positive `maxCount`. -/
structure Valid (c : LRU β) : Prop where
  wf : c.ll.WF
  cache : c.CacheAgrees
  bound : 0 < c.maxCount → (c.ll.len : Int) ≤ c.maxCount

variable {c : LRU β}

theorem valid_newLRU (maxCount : Int) : (newLRU maxCount : LRU β).Valid := by
  refine ⟨ContainerList.wf_new, fun k ele => ?_, fun hpos => ?_⟩
  · simp [newLRU, AList.lookup_empty]
  · show (0 : Int) ≤ maxCount
    exact le_of_lt hpos

/-- Within the list, an element is the map's element for a key exactly when
its item has that key. -/
theorem Valid.addr_iff_key (h : c.Valid) {k : UInt64} {ele : Nat}
    (hlk : c.cache.lookup k = some ele) : ∀ x ∈ c.ll.entries, x.1 = ele ↔ x.2.key = k := by
  rintro ⟨e, kv⟩ hx
  obtain ⟨kv₀, hkv₀, hkey₀⟩ := (h.cache k ele).mp hlk
  constructor
  · intro he
    subst he
    rw [ContainerList.eq_of_mem_entries hx hkv₀]
    exact hkey₀
  · intro hkey
    have hlk' := (h.cache k e).mpr ⟨kv, hx, hkey⟩
    rw [hlk] at hlk'
    exact (Option.some.inj hlk').symm

/-- A key the map does not hold is on no item. -/
theorem Valid.key_ne (h : c.Valid) {k : UInt64} (hlk : c.cache.lookup k = none) :
    ∀ x ∈ c.ll.entries, x.2.key ≠ k := by
  rintro ⟨e, kv⟩ hx hkey
  have hlk' := (h.cache k e).mpr ⟨kv, hx, hkey⟩
  rw [hlk] at hlk'
  cases hlk'

/-- The keys of the view are distinct. -/
theorem Valid.nodup_keys (h : c.Valid) : (c.view.map Prod.fst).Nodup := by
  have hnd := h.wf.nodup_entries
  rw [view, List.map_map]
  refine (List.nodup_map_iff_inj_on ?_).mpr ?_
  · exact List.Nodup.of_map _ hnd
  · intro x hx y hy hxy
    have hkey : x.2.key = y.2.key := hxy
    obtain ⟨ele, hlk⟩ : ∃ ele, c.cache.lookup y.2.key = some ele :=
      ⟨y.1, (h.cache _ _).mpr ⟨y.2, hy, rfl⟩⟩
    have hx1 : x.1 = ele := ((h.addr_iff_key hlk) x hx).mpr hkey
    have hy1 : y.1 = ele := ((h.addr_iff_key hlk) y hy).mpr rfl
    have hxy1 : x.1 = y.1 := hx1.trans hy1.symm
    obtain ⟨e, kv⟩ := x
    obtain ⟨e', kv'⟩ := y
    simp only at hxy1
    subst hxy1
    rw [ContainerList.eq_of_mem_entries hx hy]

theorem Valid.mem_cache_iff (h : c.Valid) (k : UInt64) : k ∈ c.cache ↔ k ∈ c.view.map Prod.fst := by
  rw [← AList.lookup_isSome, Option.isSome_iff_exists]
  simp only [view, List.map_map, List.mem_map, Function.comp]
  constructor
  · rintro ⟨ele, hlk⟩
    obtain ⟨kv, hkv, rfl⟩ := (h.cache k ele).mp hlk
    exact ⟨(ele, kv), hkv, rfl⟩
  · rintro ⟨⟨ele, kv⟩, hkv, rfl⟩
    exact ⟨ele, (h.cache _ _).mpr ⟨kv, hkv, rfl⟩⟩

theorem Valid.len_eq (h : c.Valid) : c.len = c.view.length := by
  rw [len, h.wf.len_eq, view, List.length_map]

/-! ## What each operation does to the list -/

theorem put_of_lookup {k : UInt64} {ele : Nat} (hlk : c.cache.lookup k = some ele) (v : β) :
    c.put k v =
      { c with ll := (c.ll.moveToFront ele).modifyValue ele (fun kv => { kv with value := v }) } := by
  simp [put, hlk]

theorem put_of_lookup_none {k : UInt64} (hlk : c.cache.lookup k = none) (v : β) :
    c.put k v =
      if (c.pushNew k v).maxCount ≠ 0 ∧ ((c.pushNew k v).ll.len : Int) > (c.pushNew k v).maxCount
      then (c.pushNew k v).removeOldest else c.pushNew k v := by
  simp only [put, hlk]

/-- Entries that keep their addresses and keys keep the map valid. -/
theorem Valid.of_entries (h : c.Valid) {c' : LRU β} (hwf : c'.ll.WF) (hcache : c'.cache = c.cache)
    (hmax : c'.maxCount = c.maxCount) (hlen : c'.ll.len = c.ll.len)
    (hkeys : ∀ e k, (∃ kv, (e, kv) ∈ c'.ll.entries ∧ kv.key = k) ↔
      (∃ kv, (e, kv) ∈ c.ll.entries ∧ kv.key = k)) : c'.Valid := by
  refine ⟨hwf, fun k ele => ?_, fun hpos => ?_⟩
  · rw [hcache, hkeys]
    exact h.cache k ele
  · rw [hlen, hmax]
    exact h.bound (hmax ▸ hpos)

/-- `removeElement` of an element of the list drops it and its key. -/
theorem cacheAgrees_removeElement (hwf : c.ll.WF) (hca : c.CacheAgrees) {ele : Nat} {kv : Item β}
    (hkv : (ele, kv) ∈ c.ll.entries) :
    (c.removeElement ele).CacheAgrees ∧
      (c.removeElement ele).ll.entries = c.ll.entries.filter (fun x => x.1 ≠ ele) := by
  have hval : (c.ll.remove ele).value ele = some kv := (ContainerList.mem_entries.mp hkv).2
  have hent : (c.removeElement ele).ll.entries = c.ll.entries.filter (fun x => x.1 ≠ ele) := by
    simp only [removeElement, hval]
    exact ContainerList.entries_remove hwf ele
  have hcache : (c.removeElement ele).cache = c.cache.erase kv.key := by
    simp only [removeElement, hval]
  refine ⟨fun k e => ?_, hent⟩
  rw [hcache, hent]
  simp only [List.mem_filter, decide_eq_true_eq]
  by_cases hk : k = kv.key
  · -- the removed key: only `ele` held it
    subst hk
    rw [AList.lookup_erase]
    simp only [reduceCtorEq, false_iff, not_exists, not_and]
    intro kv' ⟨hkv', hne⟩ hkey
    have hlk := (hca _ e).mpr ⟨kv', hkv', hkey⟩
    have hlk' := (hca _ ele).mpr ⟨kv, hkv, rfl⟩
    rw [hlk] at hlk'
    exact hne (Option.some.inj hlk')
  · rw [AList.lookup_erase_ne hk, hca k e]
    constructor
    · rintro ⟨kv', hkv', rfl⟩
      refine ⟨kv', ⟨hkv', fun he => hk ?_⟩, rfl⟩
      subst he
      rw [ContainerList.eq_of_mem_entries hkv' hkv]
    · rintro ⟨kv', ⟨hkv', -⟩, rfl⟩
      exact ⟨kv', hkv', rfl⟩

@[simp] theorem ll_removeElement (ele : Nat) : (c.removeElement ele).ll = c.ll.remove ele := by
  simp only [removeElement]
  split <;> rfl

@[simp] theorem maxCount_get (k : UInt64) : (c.get k).1.maxCount = c.maxCount := by
  unfold get
  split <;> rfl

@[simp] theorem maxCount_removeElement (ele : Nat) : (c.removeElement ele).maxCount = c.maxCount := by
  simp only [removeElement]
  split <;> rfl

/-- `removeElement` of an element of a valid cache keeps it valid. -/
theorem Valid.removeElement (h : c.Valid) {ele : Nat} {kv : Item β} (hkv : (ele, kv) ∈ c.ll.entries) :
    (c.removeElement ele).Valid ∧
      (c.removeElement ele).ll.entries = c.ll.entries.filter (fun x => x.1 ≠ ele) := by
  obtain ⟨hca, hent⟩ := cacheAgrees_removeElement h.wf h.cache hkv
  refine ⟨⟨?_, hca, fun hpos => ?_⟩, hent⟩
  · rw [ll_removeElement]
    exact ContainerList.wf_remove h.wf ele
  · rw [maxCount_removeElement] at hpos ⊢
    have hle : (c.removeElement ele).ll.len ≤ c.ll.len := by
      rw [ll_removeElement]
      exact ContainerList.len_remove_le ele
    have hb := h.bound hpos
    omega

/-- `MoveToFront` keeps a valid cache valid. -/
theorem Valid.moveToFront (h : c.Valid) (ele : Nat) : Valid { c with ll := c.ll.moveToFront ele } :=
  h.of_entries (ContainerList.wf_moveToFront h.wf ele) rfl rfl (ContainerList.len_moveToFront ele)
    (fun _ _ => by simp only [ContainerList.mem_entries_moveToFront])

@[simp] theorem maxCount_removeOldest : c.removeOldest.maxCount = c.maxCount := by
  unfold removeOldest
  split
  · exact maxCount_removeElement _
  · rfl

@[simp] theorem maxCount_put (k : UInt64) (v : β) : (c.put k v).maxCount = c.maxCount := by
  cases hlk : c.cache.lookup k with
  | some ele => rw [put_of_lookup hlk]
  | none =>
      rw [put_of_lookup_none hlk]
      split_ifs
      · exact maxCount_removeOldest
      · rfl

@[simp] theorem maxCount_remove (k : UInt64) : (c.remove k).maxCount = c.maxCount := by
  unfold remove
  split
  · exact maxCount_removeElement _
  · rfl

theorem entries_pushNew (hwf : c.ll.WF) (k : UInt64) (v : β) :
    (c.pushNew k v).ll.entries = (c.ll.heap.length, ⟨k, v⟩) :: c.ll.entries :=
  ContainerList.entries_pushFront hwf _

/-- The pushed element is the new key's, and the map keeps agreeing. -/
theorem cacheAgrees_pushNew (h : c.Valid) {k : UInt64} (hlk : c.cache.lookup k = none) (v : β) :
    (c.pushNew k v).CacheAgrees := by
  intro k' e
  rw [entries_pushNew h.wf]
  simp only [pushNew, List.mem_cons, Prod.mk.injEq]
  by_cases hk : k' = k
  · subst hk
    rw [AList.lookup_insert]
    constructor
    · intro he
      exact ⟨⟨k', v⟩, .inl ⟨Option.some.inj he |>.symm, rfl⟩, rfl⟩
    · rintro ⟨kv, hkv | hkv, hkey⟩
      · rw [hkv.1]
        rfl
      · exact absurd hkey (h.key_ne hlk _ hkv)
  · rw [AList.lookup_insert_ne hk, h.cache k' e]
    constructor
    · rintro ⟨kv, hkv, hkey⟩
      exact ⟨kv, .inr hkv, hkey⟩
    · rintro ⟨kv, hkv | hkv, hkey⟩
      · rw [← hkey, hkv.2] at hk
        exact absurd rfl hk
      · exact ⟨kv, hkv, hkey⟩

/-! ## Dropping the oldest element -/

/-- `removeOldest` drops the last pair. -/
theorem Valid.removeOldest (h : c.Valid) : c.removeOldest.Valid ∧ c.removeOldest.view = c.view.dropLast := by
  unfold LRU.removeOldest
  cases hb : c.ll.back with
  | none =>
      -- `Back()` is nil only on an empty list
      have hnil : c.ll.entries = [] := by
        rw [h.wf.back_eq, Option.map_eq_none_iff, List.getLast?_eq_none_iff] at hb
        exact hb
      refine ⟨h, ?_⟩
      rw [LRU.view, hnil]
      rfl
  | some b =>
      have hb' := hb
      rw [h.wf.back_eq, Option.map_eq_some_iff] at hb'
      obtain ⟨⟨e, kv⟩, hlast, rfl⟩ := hb'
      obtain ⟨hvalid, hent⟩ := h.removeElement (List.mem_of_getLast? hlast)
      refine ⟨hvalid, ?_⟩
      rw [LRU.view, hent, h.wf.filter_back hb, List.map_dropLast]
      rfl

/-- `getAndRemoveOldest` is `removeOldest`, returning the last pair. -/
theorem getAndRemoveOldest_eq (hwf : c.ll.WF) : c.getAndRemoveOldest = (c.removeOldest, c.view.getLast?) := by
  unfold getAndRemoveOldest removeOldest
  rw [LRU.view, List.getLast?_map]
  cases hb : c.ll.back with
  | none =>
      rw [hwf.back_eq, Option.map_eq_none_iff] at hb
      rw [hb]
      rfl
  | some b =>
      rw [hwf.back_eq, Option.map_eq_some_iff] at hb
      obtain ⟨⟨e, kv⟩, hlast, rfl⟩ := hb
      have hval : c.ll.value e = some kv := (ContainerList.mem_entries.mp (List.mem_of_getLast? hlast)).2
      dsimp only
      rw [hval, hlast]
      rfl

end LRU

end PlacementDriver.Cache
