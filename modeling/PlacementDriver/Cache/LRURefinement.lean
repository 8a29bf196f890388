import PlacementDriver.Cache.LRU

/-!
# `LRU` against a list of pairs ordered by recency

The reference model of an LRU cache is a list of (key, value) pairs with
distinct keys, most recently used first: `Put` puts its pair first and drops
the key's old pair, then cuts the list to `maxCount` when that is positive;
`Get` moves the key's pair first and returns its value; `Peek` returns the
value and moves nothing; `Remove` drops the key's pair.

`Sim` relates the cache to the model: the cache is `Valid` and its `view` is
the model's list. Each call keeps `Sim` and returns what the model returns
(`sim_apply`), so a whole run does (`sim_run`), and from `newLRU` the cache
is the model at every point of every run (`lru_refines_reference`).

The one place `maxCount ≥ 0` is needed is eviction: with a positive
`maxCount`, the element `removeOldest` drops after a push is never the one
just pushed, because the list held `maxCount ≥ 1` pairs before it.
-/

namespace PlacementDriver.Cache

open Go

namespace LRU

variable {β : Type}

/-! ## The reference model -/

/-- `Put` in the model. -/
def refPut (maxCount : Int) (l : List (UInt64 × β)) (key : UInt64) (value : β) :
    List (UInt64 × β) :=
  let l := (key, value) :: l.filter (fun x => x.1 ≠ key)
  if 0 < maxCount then l.take maxCount.toNat else l

/-- `Get` in the model. -/
def refGet (l : List (UInt64 × β)) (key : UInt64) : List (UInt64 × β) × Option β :=
  match l.find? (fun x => x.1 = key) with
  | some x => (x :: l.filter (fun y => y.1 ≠ key), some x.2)
  | none => (l, none)

/-- `Peek` in the model. -/
def refPeek (l : List (UInt64 × β)) (key : UInt64) : Option β :=
  (l.find? (fun x => x.1 = key)).map Prod.snd

/-- `Remove` in the model. -/
def refRemove (l : List (UInt64 × β)) (key : UInt64) : List (UInt64 × β) :=
  l.filter (fun x => x.1 ≠ key)

/-- A call on the cache. -/
inductive Op (β : Type) where
  | put (key : UInt64) (value : β)
  | get (key : UInt64)
  | peek (key : UInt64)
  | remove (key : UInt64)

/-- One call on the cache, with what it returns. -/
def Op.apply (c : LRU β) : Op β → LRU β × Option β
  | .put key value => (c.put key value, none)
  | .get key => c.get key
  | .peek key => (c, c.peek key)
  | .remove key => (c.remove key, none)

/-- One call on the model, with what it returns. -/
def Op.refApply (maxCount : Int) (l : List (UInt64 × β)) : Op β → List (UInt64 × β) × Option β
  | .put key value => (refPut maxCount l key value, none)
  | .get key => refGet l key
  | .peek key => (l, refPeek l key)
  | .remove key => (refRemove l key, none)

/-- A sequence of calls on the cache, with what each returns. -/
def run (c : LRU β) : List (Op β) → LRU β × List (Option β)
  | [] => (c, [])
  | op :: ops =>
      let step := op.apply c
      let rest := run step.1 ops
      (rest.1, step.2 :: rest.2)

/-- A sequence of calls on the model. -/
def refRun (maxCount : Int) (l : List (UInt64 × β)) : List (Op β) → List (UInt64 × β) × List (Option β)
  | [] => (l, [])
  | op :: ops =>
      let step := op.refApply maxCount l
      let rest := refRun maxCount step.1 ops
      (rest.1, step.2 :: rest.2)

/-! ## Pairs with distinct keys -/

/-- In a list with distinct keys, the pair of a key is the first with it. -/
theorem find?_key_of_mem {l : List (UInt64 × β)} (hnd : (l.map Prod.fst).Nodup) {k : UInt64}
    {v : β} (hkv : (k, v) ∈ l) : l.find? (fun x => x.1 = k) = some (k, v) := by
  induction l with
  | nil => exact absurd hkv List.not_mem_nil
  | cons x l ih =>
      rw [List.map_cons, List.nodup_cons] at hnd
      rcases List.mem_cons.mp hkv with rfl | hkv
      · simp
      · -- `x` has another key, as `k` is further on
        have hx : x.1 ≠ k := fun hx => hnd.1 (hx ▸ List.mem_map_of_mem hkv)
        rw [List.find?_cons_of_neg (by simpa using hx)]
        exact ih hnd.2 hkv

/-! ## The simulation -/

/-- The cache is valid and reads as the model's list. -/
structure Sim (maxCount : Int) (c : LRU β) (l : List (UInt64 × β)) : Prop where
  valid : c.Valid
  view : c.view = l
  maxCount : c.maxCount = maxCount

variable {maxCount : Int} {c : LRU β} {l : List (UInt64 × β)}

/-- The pairs of the elements other than the key's element. -/
theorem Valid.view_filter (h : c.Valid) {k : UInt64} {ele : Nat}
    (hlk : c.cache.lookup k = some ele) :
    (c.ll.entries.filter (fun x => x.1 ≠ ele)).map (fun x => (x.2.key, x.2.value)) =
      c.view.filter (fun y => y.1 ≠ k) := by
  rw [LRU.view, List.filter_map]
  congr 1
  refine List.filter_congr (fun x hx => ?_)
  simp [h.addr_iff_key hlk x hx]

theorem Valid.find?_view (h : c.Valid) {k : UInt64} {ele : Nat} {kv : Item β}
    (hkv : (ele, kv) ∈ c.ll.entries) (hkey : kv.key = k) :
    c.view.find? (fun x => x.1 = k) = some (k, kv.value) := by
  refine find?_key_of_mem h.nodup_keys ?_
  rw [← hkey]
  exact List.mem_map_of_mem hkv

theorem Valid.find?_view_none (h : c.Valid) {k : UInt64} (hlk : c.cache.lookup k = none) :
    c.view.find? (fun x => x.1 = k) = none := by
  rw [List.find?_eq_none]
  intro x hx
  obtain ⟨y, hy, rfl⟩ := List.mem_map.mp hx
  simpa using h.key_ne hlk y hy

theorem Valid.filter_view_none (h : c.Valid) {k : UInt64} (hlk : c.cache.lookup k = none) :
    c.view.filter (fun x => x.1 ≠ k) = c.view := by
  rw [List.filter_eq_self]
  intro x hx
  obtain ⟨y, hy, rfl⟩ := List.mem_map.mp hx
  simpa using h.key_ne hlk y hy

/-! ## Each call keeps the simulation -/

/-- `Put` of a cached key: its element moves first and takes the new value. -/
theorem Sim.put_of_lookup (h : Sim maxCount c l) {k : UInt64} {ele : Nat}
    (hlk : c.cache.lookup k = some ele) (v : β) :
    Sim maxCount (c.put k v) (refPut maxCount l k v) := by
  obtain ⟨kv, hkv, hkey⟩ := (h.valid.cache k ele).mp hlk
  have hwf := h.valid.wf
  have hput := LRU.put_of_lookup hlk v
  have hent : (c.put k v).ll.entries =
      (ele, { kv with value := v }) :: c.ll.entries.filter (fun x => x.1 ≠ ele) := by
    rw [hput]
    show ((c.ll.moveToFront ele).modifyValue ele _).entries = _
    rw [ContainerList.entries_modifyValue, ContainerList.entries_moveToFront hwf hkv,
      List.map_cons, if_pos rfl]
    congr 1
    -- the write touches no other element
    rw [List.map_congr_left (fun x hx => if_neg (of_decide_eq_true (List.mem_filter.mp hx).2)),
      List.map_id']
  have hvalid : (c.put k v).Valid := by
    refine h.valid.of_entries ?_ (by rw [hput]) (by rw [hput]) ?_ ?_
    · rw [hput]
      exact ContainerList.wf_modifyValue (ContainerList.wf_moveToFront hwf ele) ele _
    · rw [hput]
      exact ContainerList.len_moveToFront ele
    · intro e k'
      rw [hent]
      simp only [List.mem_cons, List.mem_filter, Prod.mk.injEq, decide_eq_true_eq]
      constructor
      · rintro ⟨kv', ⟨rfl, rfl⟩ | ⟨hmem, -⟩, rfl⟩
        · exact ⟨kv, hkv, rfl⟩
        · exact ⟨kv', hmem, rfl⟩
      · rintro ⟨kv', hmem, rfl⟩
        by_cases he : e = ele
        · subst he
          rw [ContainerList.eq_of_mem_entries hmem hkv]
          exact ⟨_, .inl ⟨rfl, rfl⟩, rfl⟩
        · exact ⟨kv', .inr ⟨hmem, he⟩, rfl⟩
  have hview : (c.put k v).view = (k, v) :: l.filter (fun y => y.1 ≠ k) := by
    rw [LRU.view, hent, List.map_cons, h.valid.view_filter hlk, h.view]
    subst hkey
    rfl
  -- the list did not grow, so the model's cut keeps it whole
  have hlen : 0 < maxCount → ((k, v) :: l.filter (fun y => y.1 ≠ k)).length ≤ maxCount.toNat := by
    intro hpos
    have hb := hvalid.bound (by rw [maxCount_put, h.maxCount]; exact hpos)
    have hl : (c.put k v).ll.len = ((k, v) :: l.filter (fun y => y.1 ≠ k)).length := by
      rw [← hview]
      exact hvalid.len_eq
    rw [maxCount_put, h.maxCount, hl] at hb
    omega
  refine ⟨hvalid, ?_, by rw [maxCount_put, h.maxCount]⟩
  rw [hview]
  simp only [refPut]
  split_ifs with hpos
  · exact (List.take_of_length_le (hlen hpos)).symm
  · rfl

/-- `Put` of a new key: a new element in front, and the back element dropped
when the list grew past `maxCount`. -/
theorem Sim.put_of_lookup_none (hm : 0 ≤ maxCount) (h : Sim maxCount c l) {k : UInt64}
    (hlk : c.cache.lookup k = none) (v : β) :
    Sim maxCount (c.put k v) (refPut maxCount l k v) := by
  have hwf := h.valid.wf
  have hwf₁ : (c.pushNew k v).ll.WF := ContainerList.wf_pushFront hwf _
  have hent₁ := entries_pushNew hwf k v
  have hca₁ := cacheAgrees_pushNew h.valid hlk v
  have hmax₁ : (c.pushNew k v).maxCount = maxCount := h.maxCount
  have hl : c.ll.entries.length = l.length := by
    rw [← h.view, LRU.view, List.length_map]
  have hlen₁ : (c.pushNew k v).ll.len = l.length + 1 := by
    rw [hwf₁.len_eq, hent₁, List.length_cons, hl]
  have hview₁ : (c.pushNew k v).view = (k, v) :: l := by
    rw [LRU.view, hent₁, List.map_cons, ← LRU.view, h.view]
  have hmodel : refPut maxCount l k v =
      if 0 < maxCount then ((k, v) :: l).take maxCount.toNat else (k, v) :: l := by
    have hfilter : l.filter (fun x => x.1 ≠ k) = l := h.view ▸ h.valid.filter_view_none hlk
    simp only [refPut, hfilter]
  have hbound : (c.ll.len : Int) ≤ maxCount ∨ maxCount ≤ 0 := by
    rcases lt_or_ge 0 maxCount with hpos | hpos
    · exact .inl (h.maxCount ▸ h.valid.bound (h.maxCount ▸ hpos))
    · exact .inr hpos
  have hlenc : c.ll.len = l.length := by rw [hwf.len_eq, hl]
  rw [LRU.put_of_lookup_none hlk, hmodel]
  generalize c.pushNew k v = c₁ at hwf₁ hent₁ hca₁ hmax₁ hlen₁ hview₁
  split_ifs with hcond hpos hpos
  · -- eviction: the list held `maxCount ≥ 1` pairs, and its last one goes
    have hfull : l.length = maxCount.toNat := by omega
    have hne : c.ll.entries ≠ [] := by
      rw [← List.length_pos_iff, hl]
      omega
    obtain ⟨⟨b, kvb⟩, hlast⟩ : ∃ x, c.ll.entries.getLast? = some x :=
      Option.isSome_iff_exists.mp (List.getLast?_isSome.mpr hne)
    have hback : c₁.ll.back = some b := by
      rw [hwf₁.back_eq, hent₁, List.getLast?_cons, hlast]
      rfl
    have hmem₁ : (b, kvb) ∈ c₁.ll.entries := by
      rw [hent₁]
      exact List.mem_cons_of_mem _ (List.mem_of_getLast? hlast)
    have hro : c₁.removeOldest = c₁.removeElement b := by
      unfold removeOldest
      rw [hback]
    obtain ⟨hca₂, hent₂⟩ := cacheAgrees_removeElement hwf₁ hca₁ hmem₁
    have hent₂' : (c₁.removeElement b).ll.entries =
        (c.ll.heap.length, ⟨k, v⟩) :: c.ll.entries.dropLast := by
      rw [hent₂, hwf₁.filter_back hback, hent₁, List.dropLast_cons_of_ne_nil hne]
    have hview₂ : (c₁.removeElement b).view = (k, v) :: l.dropLast := by
      rw [LRU.view, hent₂', List.map_cons, List.map_dropLast, ← LRU.view, h.view]
    have hwf₂ : (c₁.removeElement b).ll.WF := by
      rw [ll_removeElement]
      exact ContainerList.wf_remove hwf₁ b
    have hlen₂ : (c₁.removeElement b).ll.len = l.length := by
      rw [hwf₂.len_eq, hent₂', List.length_cons, List.length_dropLast, hl]
      have := List.length_pos_iff.mpr hne
      omega
    rw [hro]
    refine ⟨⟨hwf₂, hca₂, fun _ => ?_⟩, ?_, by rw [maxCount_removeElement, hmax₁]⟩
    · rw [hlen₂, maxCount_removeElement, hmax₁]
      omega
    · obtain ⟨n, hn⟩ : ∃ n, maxCount.toNat = n + 1 := ⟨l.length - 1, by omega⟩
      rw [hview₂, hn, List.take_succ_cons, List.dropLast_eq_take]
      congr 2
      omega
  · omega
  · -- no eviction, and the model's cut keeps the whole list
    refine ⟨⟨hwf₁, hca₁, fun _ => ?_⟩, ?_, hmax₁⟩
    · omega
    · rw [hview₁, List.take_of_length_le]
      simp only [List.length_cons]
      omega
  · exact ⟨⟨hwf₁, hca₁, fun hpos' => absurd (hmax₁ ▸ hpos') hpos⟩, hview₁, hmax₁⟩

/-- `Get` moves the key's pair first and returns its value. -/
theorem Sim.get (h : Sim maxCount c l) (k : UInt64) :
    Sim maxCount (c.get k).1 (refGet l k).1 ∧ (c.get k).2 = (refGet l k).2 := by
  cases hlk : c.cache.lookup k with
  | none =>
      have hget : c.get k = (c, none) := by simp only [LRU.get, hlk]
      have href : refGet l k = (l, none) := by
        rw [refGet, ← h.view, h.valid.find?_view_none hlk]
      rw [hget, href]
      exact ⟨h, rfl⟩
  | some ele =>
      obtain ⟨kv, hkv, hkey⟩ := (h.valid.cache k ele).mp hlk
      have hval : c.ll.value ele = some kv := (ContainerList.mem_entries.mp hkv).2
      have hget : c.get k = ({ c with ll := c.ll.moveToFront ele }, some kv.value) := by
        simp only [LRU.get, hlk, ContainerList.value_moveToFront, hval, Option.map_some]
      have href : refGet l k = ((k, kv.value) :: l.filter (fun y => y.1 ≠ k), some kv.value) := by
        rw [refGet, ← h.view, h.valid.find?_view hkv hkey]
      rw [hget, href]
      refine ⟨⟨h.valid.moveToFront ele, ?_, h.maxCount⟩, rfl⟩
      show (c.ll.moveToFront ele).entries.map _ = _
      rw [ContainerList.entries_moveToFront h.valid.wf hkv, List.map_cons,
        h.valid.view_filter hlk, h.view, hkey]

/-- `Peek` returns the key's value and changes nothing. -/
theorem Sim.peek (h : Sim maxCount c l) (k : UInt64) : c.peek k = refPeek l k := by
  cases hlk : c.cache.lookup k with
  | none =>
      rw [LRU.peek, hlk, refPeek, ← h.view, h.valid.find?_view_none hlk]
      rfl
  | some ele =>
      obtain ⟨kv, hkv, hkey⟩ := (h.valid.cache k ele).mp hlk
      have hval : c.ll.value ele = some kv := (ContainerList.mem_entries.mp hkv).2
      rw [LRU.peek, hlk, refPeek, ← h.view, h.valid.find?_view hkv hkey, Option.bind_some, hval]
      rfl

/-- `Remove` drops the key's pair. -/
theorem Sim.remove (h : Sim maxCount c l) (k : UInt64) :
    Sim maxCount (c.remove k) (refRemove l k) := by
  cases hlk : c.cache.lookup k with
  | none =>
      have hrem : c.remove k = c := by simp only [LRU.remove, hlk]
      rw [hrem, refRemove, ← h.view, h.valid.filter_view_none hlk]
      exact ⟨h.valid, rfl, h.maxCount⟩
  | some ele =>
      obtain ⟨kv, hkv, -⟩ := (h.valid.cache k ele).mp hlk
      have hrem : c.remove k = c.removeElement ele := by simp only [LRU.remove, hlk]
      obtain ⟨hvalid, hent⟩ := h.valid.removeElement hkv
      rw [hrem]
      refine ⟨hvalid, ?_, by rw [maxCount_removeElement, h.maxCount]⟩
      rw [LRU.view, hent, h.valid.view_filter hlk, h.view]
      rfl

/-- One call keeps the simulation and returns what the model returns. -/
theorem Sim.apply (hm : 0 ≤ maxCount) (h : Sim maxCount c l) (op : Op β) :
    Sim maxCount (op.apply c).1 (op.refApply maxCount l).1 ∧
      (op.apply c).2 = (op.refApply maxCount l).2 := by
  cases op with
  | put k v =>
      refine ⟨?_, rfl⟩
      cases hlk : c.cache.lookup k with
      | some ele => exact h.put_of_lookup hlk v
      | none => exact h.put_of_lookup_none hm hlk v
  | get k => exact h.get k
  | peek k => exact ⟨h, h.peek k⟩
  | remove k => exact ⟨h.remove k, rfl⟩

/-- A run keeps the simulation and returns what the model returns, call by call. -/
theorem Sim.run (hm : 0 ≤ maxCount) (h : Sim maxCount c l) (ops : List (Op β)) :
    Sim maxCount (c.run ops).1 (refRun maxCount l ops).1 ∧
      (c.run ops).2 = (refRun maxCount l ops).2 := by
  induction ops generalizing c l with
  | nil => exact ⟨h, rfl⟩
  | cons op ops ih =>
      obtain ⟨hstep, hout⟩ := h.apply hm op
      obtain ⟨hrest, hrest_out⟩ := ih hstep
      refine ⟨hrest, ?_⟩
      simp only [LRU.run, refRun, hout, hrest_out]

/-! ## A valid cache, call by call

`Sim` at the cache's own `view`: what a caller such as `TwoQueue` uses of an
LRU it keeps valid. -/

theorem Valid.sim (h : c.Valid) : Sim c.maxCount c c.view := ⟨h, rfl, rfl⟩

theorem Valid.put (h : c.Valid) (hm : 0 ≤ c.maxCount) (k : UInt64) (v : β) :
    (c.put k v).Valid ∧ (c.put k v).view = refPut c.maxCount c.view k v := by
  have hs := (h.sim.apply hm (.put k v)).1
  exact ⟨hs.valid, hs.view⟩

theorem Valid.remove (h : c.Valid) (k : UInt64) :
    (c.remove k).Valid ∧ (c.remove k).view = refRemove c.view k := by
  have hs := h.sim.remove k
  exact ⟨hs.valid, hs.view⟩

theorem Valid.get (h : c.Valid) (k : UInt64) :
    (c.get k).1.Valid ∧ (c.get k).1.view = (refGet c.view k).1 ∧ (c.get k).2 = (refGet c.view k).2 := by
  obtain ⟨hs, hout⟩ := h.sim.get k
  exact ⟨hs.valid, hs.view, hout⟩

theorem Valid.peek (h : c.Valid) (k : UInt64) : c.peek k = refPeek c.view k := h.sim.peek k

/-- A pair in the model after `Put` is the new pair or was there before. -/
theorem mem_refPut {m : Int} {k : UInt64} {v : β} {x : UInt64 × β} (hx : x ∈ refPut m l k v) :
    x = (k, v) ∨ x ∈ l := by
  have hsub : x ∈ (k, v) :: l.filter (fun y => y.1 ≠ k) := by
    simp only [refPut] at hx
    split_ifs at hx
    · exact List.mem_of_mem_take hx
    · exact hx
  rcases List.mem_cons.mp hsub with rfl | hmem
  · exact .inl rfl
  · exact .inr (List.mem_of_mem_filter hmem)

theorem mem_refRemove {k : UInt64} {x : UInt64 × β} (hx : x ∈ refRemove l k) : x ∈ l :=
  List.mem_of_mem_filter hx

theorem mem_refGet {k : UInt64} {x : UInt64 × β} (hx : x ∈ (refGet l k).1) : x ∈ l := by
  unfold refGet at hx
  split at hx
  · next y hy =>
      rcases List.mem_cons.mp hx with rfl | hmem
      · exact List.mem_of_find?_eq_some hy
      · exact List.mem_of_mem_filter hmem
  · exact hx

/-- What `Get` returns is the value of the key's pair. -/
theorem refGet_eq_some {k : UInt64} {v : β} (h : (refGet l k).2 = some v) : (k, v) ∈ l := by
  unfold refGet at h
  split at h
  · next y hy =>
      cases h
      have hk : y.1 = k := by simpa using List.find?_some hy
      rw [← hk]
      exact List.mem_of_find?_eq_some hy
  · cases h

theorem refPeek_eq_some {k : UInt64} {v : β} (h : refPeek l k = some v) : (k, v) ∈ l := by
  rw [refPeek, Option.map_eq_some_iff] at h
  obtain ⟨y, hy, rfl⟩ := h
  have hk : y.1 = k := by simpa using List.find?_some hy
  rw [← hk]
  exact List.mem_of_find?_eq_some hy

/-- After `Put` a valid cache holds the new pair and pairs it held. -/
theorem Valid.mem_put_view (h : c.Valid) (hm : 0 ≤ c.maxCount) {k : UInt64} {v : β}
    {x : UInt64 × β} (hx : x ∈ (c.put k v).view) : x = (k, v) ∨ x ∈ c.view := by
  rw [(h.put hm k v).2] at hx
  exact mem_refPut hx

theorem Valid.mem_remove_view (h : c.Valid) {k : UInt64} {x : UInt64 × β}
    (hx : x ∈ (c.remove k).view) : x ∈ c.view := by
  rw [(h.remove k).2] at hx
  exact mem_refRemove hx

/-! ## The cache is the model -/

theorem lru_refines_reference (maxCount : Int) (hmax : 0 ≤ maxCount) (ops : List (Op β)) :
    ((newLRU maxCount : LRU β).run ops).1.view = (refRun maxCount [] ops).1 ∧
      ((newLRU maxCount : LRU β).run ops).2 = (refRun maxCount [] ops).2 ∧
      (∀ k, k ∈ ((newLRU maxCount : LRU β).run ops).1.cache ↔
        k ∈ (refRun maxCount [] ops).1.map Prod.fst) ∧
      ((refRun maxCount [] ops).1.map Prod.fst).Nodup ∧
      (0 < maxCount → (((newLRU maxCount : LRU β).run ops).1.len : Int) ≤ maxCount) := by
  have hinit : Sim maxCount (newLRU maxCount : LRU β) [] := ⟨valid_newLRU maxCount, rfl, rfl⟩
  obtain ⟨⟨hvalid, hview, hmaxCount⟩, hout⟩ := hinit.run hmax ops
  refine ⟨hview, hout, fun k => ?_, ?_, fun hpos => ?_⟩
  · rw [hvalid.mem_cache_iff, hview]
  · rw [← hview]
    exact hvalid.nodup_keys
  · have hb := hvalid.bound (by rw [hmaxCount]; exact hpos)
    rw [hmaxCount] at hb
    exact hb

/-- Two puts and a get on a cache of two, then a third put evicts the older key. -/
def demoOps : List (Op Nat) := [.put 1 10, .put 2 20, .get 1, .put 3 30, .peek 2, .get 1]

theorem lru_refines_reference_demo :
    (0 : Int) ≤ 2 ∧ ((newLRU 2 : LRU Nat).run demoOps).1.view = (refRun 2 [] demoOps).1 :=
  ⟨by decide, (lru_refines_reference 2 (by decide) demoOps).1⟩

example : (refRun 2 [] demoOps) = ([(1, 10), (3, 30)], [none, none, some 10, none, none, some 10]) := by
  decide

end LRU

end PlacementDriver.Cache
