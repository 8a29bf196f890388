import PlacementDriver.Cache.TwoQueue

/-!
# The invariants of `TwoQueue` along every run

From `newTwoQueue(size)` with `size ≥ 1`, along every sequence of `Put`,
`Get`, `Peek` and `Remove`, the keys of `recent`, `frequent` and `ghost` are
pairwise disjoint, `recent` and `frequent` hold at most `size` items
together, `Elems()` lists each key once, and `Get` and `Peek` of a key in
`recent` or `frequent` return the value of the last `Put` of that key.

The bound rests on `recentSize < size`. When the two LRUs are full and
`frequent` is empty, `recent` holds `size` items, more than `recentSize`, so
`ensureSpace` evicts from `recent` and never calls `removeOldest` on an empty
`frequent`. `newTwoQueue` sets `recentSize` to a quarter of `size`, rounded
as binary64, which is smaller (`Binary64.truncScale_lt`).

## Main results

* `Inv.ensureSpace`: `ensureSpace` keeps the invariant and leaves room for
  one more item.
* `Inv.put`, `Inv.get`, `Inv.remove`: each call keeps the invariant.
* `Inv.run`: along every run the invariant holds, and every pair held has the
  value of the last `Put` of its key.
* `two_queue_invariant`: the whole statement for `newTwoQueue(size)`.
-/

namespace PlacementDriver.Cache

namespace LRU

variable {β : Type}

/-- The keys the LRU holds, most recently used first. -/
def keys (c : LRU β) : List UInt64 := c.view.map Prod.fst

@[simp] theorem keys_newLRU (maxCount : Int) : (newLRU maxCount : LRU β).keys = [] := rfl

@[simp] theorem len_newLRU (maxCount : Int) : (newLRU maxCount : LRU β).len = 0 := rfl

theorem keys_eq_elems (c : LRU β) : c.keys = c.elems.map Item.key := by
  simp [keys, view, elems, List.map_map, Function.comp_def]

/-! ## Lengths under the reference operations -/

section Reference

variable {l : List (UInt64 × β)} {k : UInt64}

theorem mem_refPut_self (m : Int) (v : β) : (k, v) ∈ refPut m l k v := by
  unfold refPut
  split_ifs with hm
  · obtain ⟨n, hn⟩ : ∃ n, m.toNat = n + 1 := ⟨m.toNat - 1, by omega⟩
    rw [hn, List.take_succ_cons]
    exact List.mem_cons_self
  · exact List.mem_cons_self

theorem length_refPut_le (m : Int) (v : β) :
    (refPut m l k v).length ≤ (l.filter fun x => x.1 ≠ k).length + 1 := by
  unfold refPut
  split_ifs
  · simp only [List.length_take, List.length_cons]
    omega
  · simp

theorem filter_ne_of_not_mem (hk : k ∉ l.map Prod.fst) : l.filter (fun x => x.1 ≠ k) = l :=
  List.filter_eq_self.mpr fun x hx => decide_eq_true fun hxk => hk (by
    rw [← hxk]
    exact List.mem_map_of_mem hx)

/-- With distinct keys, dropping a key that is there drops one pair. -/
theorem length_filter_ne (hnd : (l.map Prod.fst).Nodup) (hk : k ∈ l.map Prod.fst) :
    (l.filter fun x => x.1 ≠ k).length + 1 = l.length := by
  induction l with
  | nil => exact absurd hk List.not_mem_nil
  | cons x l ih =>
    rw [List.map_cons, List.nodup_cons] at hnd
    by_cases hx : x.1 = k
    · subst hx
      rw [List.filter_cons_of_neg (by simp), filter_ne_of_not_mem hnd.1, List.length_cons]
    · have hk' : k ∈ l.map Prod.fst := by
        rw [List.map_cons, List.mem_cons] at hk
        exact hk.resolve_left (Ne.symm hx)
      rw [List.filter_cons_of_pos (by simpa using hx), List.length_cons, List.length_cons, ih hnd.2 hk']

theorem length_refGet_le : (refGet l k).1.length ≤ l.length := by
  unfold refGet
  split
  · next x hx =>
      have hlt : (l.filter fun y => y.1 ≠ k).length < l.length :=
        List.length_filter_lt_length_iff_exists.mpr
          ⟨x, List.mem_of_find?_eq_some hx, by simpa using List.find?_some hx⟩
      simp only [List.length_cons]
      omega
  · exact le_rfl

end Reference

/-! ## Keys and lengths of a valid LRU -/

variable {c : LRU β} {k : UInt64}

theorem Valid.contains_iff (h : c.Valid) : c.contains k = true ↔ k ∈ c.keys := by
  rw [contains, decide_eq_true_iff]
  exact h.mem_cache_iff k

theorem Valid.keys_put (h : c.Valid) (hm : 0 ≤ c.maxCount) (v : β) : (c.put k v).keys ⊆ k :: c.keys := by
  intro x hx
  obtain ⟨p, hp, rfl⟩ := List.mem_map.mp hx
  rcases h.mem_put_view hm hp with rfl | hp
  · exact List.mem_cons_self
  · exact List.mem_cons_of_mem _ (List.mem_map_of_mem hp)

theorem Valid.mem_put_self (h : c.Valid) (hm : 0 ≤ c.maxCount) (v : β) : (k, v) ∈ (c.put k v).view := by
  rw [(h.put hm k v).2]
  exact mem_refPut_self _ _

theorem Valid.len_put_le (h : c.Valid) (hm : 0 ≤ c.maxCount) (v : β) : (c.put k v).len ≤ c.len + 1 := by
  rw [(h.put hm k v).1.len_eq, (h.put hm k v).2, h.len_eq]
  exact (length_refPut_le _ _).trans (Nat.succ_le_succ (List.length_filter_le _ _))

/-- `Put` of a key already there adds no item. -/
theorem Valid.len_put_of_mem (h : c.Valid) (hm : 0 ≤ c.maxCount) (v : β) (hk : k ∈ c.keys) :
    (c.put k v).len ≤ c.len := by
  rw [(h.put hm k v).1.len_eq, (h.put hm k v).2, h.len_eq]
  have hdrop := length_filter_ne h.nodup_keys hk
  have hput := length_refPut_le (m := c.maxCount) (l := c.view) (k := k) v
  omega

theorem Valid.keys_remove (h : c.Valid) : (c.remove k).keys ⊆ c.keys ∧ k ∉ (c.remove k).keys := by
  rw [keys, keys, (h.remove k).2]
  refine ⟨List.map_subset _ (List.filter_subset_self _), fun hk => ?_⟩
  obtain ⟨p, hp, hpk⟩ := List.mem_map.mp hk
  simp [refRemove, hpk] at hp

theorem Valid.len_remove_of_mem (h : c.Valid) (hk : k ∈ c.keys) : (c.remove k).len + 1 = c.len := by
  rw [(h.remove k).1.len_eq, (h.remove k).2, h.len_eq]
  exact length_filter_ne h.nodup_keys hk

theorem Valid.len_remove_le (h : c.Valid) : (c.remove k).len ≤ c.len := by
  rw [(h.remove k).1.len_eq, (h.remove k).2, h.len_eq]
  exact List.length_filter_le _ _

theorem Valid.keys_get (h : c.Valid) : (c.get k).1.keys ⊆ c.keys := by
  intro x hx
  rw [keys, (h.get k).2.1] at hx
  obtain ⟨p, hp, rfl⟩ := List.mem_map.mp hx
  exact List.mem_map_of_mem (mem_refGet hp)

theorem Valid.len_get_le (h : c.Valid) : (c.get k).1.len ≤ c.len := by
  rw [(h.get k).1.len_eq, (h.get k).2.1, h.len_eq]
  exact length_refGet_le

/-- `Peek` of a key the LRU holds returns the value of its pair. -/
theorem Valid.peek_of_mem (h : c.Valid) (hk : k ∈ c.keys) : ∃ v, (k, v) ∈ c.view ∧ c.peek k = some v := by
  obtain ⟨⟨k', v⟩, hv, hk'⟩ := List.mem_map.mp hk
  simp only at hk'
  subst hk'
  refine ⟨v, hv, ?_⟩
  rw [h.peek, refPeek, find?_key_of_mem h.nodup_keys hv]
  rfl

theorem Valid.peek_of_not_mem (h : c.Valid) (hk : k ∉ c.keys) : c.peek k = none := by
  have hfind : c.view.find? (fun x => x.1 = k) = none :=
    List.find?_eq_none.mpr fun x hx hxk => hk (by
      rw [← of_decide_eq_true hxk]
      exact List.mem_map_of_mem hx)
  rw [h.peek, refPeek, hfind]
  rfl

theorem Valid.mem_keys_of_peek (h : c.Valid) {v : β} (hv : c.peek k = some v) : k ∈ c.keys := by
  rw [h.peek] at hv
  exact List.mem_map_of_mem (f := Prod.fst) (refPeek_eq_some hv)

/-- `Get` returns what `Peek` does. -/
theorem Valid.get_snd (h : c.Valid) : (c.get k).2 = c.peek k := by
  rw [(h.get k).2.2, h.peek, refGet, refPeek]
  split
  · next x hx => rw [hx]; rfl
  · next hx => rw [hx]; rfl

/-- A nonempty LRU has an oldest key. -/
theorem Valid.oldest_key (h : c.Valid) (hlen : 0 < c.len) : ∃ e, c.view.getLast?.map Prod.fst = some e := by
  rw [h.len_eq] at hlen
  obtain ⟨x, hx⟩ := Option.isSome_iff_exists.mp (List.getLast?_isSome.mpr (List.ne_nil_of_length_pos hlen))
  exact ⟨x.1, by rw [hx]; rfl⟩

/-- `removeOldest` drops the oldest key and nothing else. -/
theorem Valid.removeOldest_keys (h : c.Valid) {e : UInt64} (he : c.view.getLast?.map Prod.fst = some e) :
    e ∈ c.keys ∧ e ∉ c.removeOldest.keys ∧ c.removeOldest.keys ⊆ c.keys ∧
      c.removeOldest.len + 1 = c.len := by
  obtain ⟨hv, hview⟩ := h.removeOldest
  rw [← List.getLast?_map, List.getLast?_eq_some_iff] at he
  obtain ⟨ys, hys⟩ := he
  have hkeys : c.removeOldest.keys = ys := by rw [keys, hview, List.map_dropLast, hys, List.dropLast_concat]
  have hnd : (ys ++ [e]).Nodup := hys ▸ h.nodup_keys
  have hlen : c.view.length = ys.length + 1 := by simpa using congrArg List.length hys
  refine ⟨?_, ?_, ?_, ?_⟩
  · rw [keys, hys]
    exact List.mem_append_right _ (List.mem_singleton_self e)
  · rw [hkeys]
    exact fun hmem => (List.nodup_append.mp hnd).2.2 e hmem e (List.mem_singleton_self e) rfl
  · rw [hkeys, keys, hys]
    exact List.subset_append_left _ _
  · rw [hv.len_eq, h.len_eq, hview, List.length_dropLast]
    omega

end LRU

namespace TwoQueue

open LRU

variable {β : Type}

/-! ## Runs -/

/-- One call on the cache; `Peek` changes nothing. -/
def apply (c : TwoQueue β) : Op β → TwoQueue β
  | .put k v => c.put k v
  | .get k => (c.get k).1
  | .peek _ => c
  | .remove k => c.remove k

/-- The cache after a sequence of calls. -/
def run (c : TwoQueue β) (ops : List (Op β)) : TwoQueue β := ops.foldl apply c

/-- The value of the last `Put` of `key` in `ops`. -/
def lastPut (ops : List (Op β)) (key : UInt64) : Option β :=
  (ops.filterMap fun op => match op with
    | .put k v => if k = key then some v else none
    | _ => none).getLast?

/-- What the last `Put` of each key is, after one more call. -/
def recordPut (last : UInt64 → Option β) : Op β → UInt64 → Option β
  | .put k v => fun x => if x = k then some v else last x
  | _ => last

theorem foldl_recordPut (ops : List (Op β)) (last : UInt64 → Option β) (x : UInt64) :
    ops.foldl recordPut last x = (lastPut ops x).or (last x) := by
  induction ops generalizing last with
  | nil => rfl
  | cons op ops ih =>
    rw [List.foldl_cons, ih]
    cases op with
    | put k v =>
      by_cases hx : x = k
      · subst hx
        simp [lastPut, recordPut, List.getLast?_cons]
      · simp [lastPut, recordPut, hx, Ne.symm hx]
    | get k => rfl
    | peek k => rfl
    | remove k => rfl

variable {c : TwoQueue β} {k : UInt64}

@[simp] theorem size_ensureSpace (g : Bool) : (c.ensureSpace g).size = c.size := by
  dsimp only [TwoQueue.ensureSpace]
  split_ifs <;> rfl

@[simp] theorem size_apply (op : Op β) : (c.apply op).size = c.size := by
  cases op with
  | put k v =>
    dsimp only [apply, TwoQueue.put]
    split_ifs <;> simp
  | get k =>
    dsimp only [apply, TwoQueue.get]
    split
    · rfl
    · split <;> rfl
  | peek k => rfl
  | remove k =>
    dsimp only [apply, TwoQueue.remove]
    split_ifs <;> rfl

@[simp] theorem size_run (ops : List (Op β)) : (c.run ops).size = c.size := by
  induction ops generalizing c with
  | nil => rfl
  | cons op ops ih => exact (ih (c := c.apply op)).trans (size_apply op)

/-- `Get` returns what `Peek` does. -/
theorem Valid.get_snd (h : c.Valid) : (c.get k).2 = c.peek k := by
  dsimp only [TwoQueue.get, TwoQueue.peek]
  rw [h.frequent.get_snd]
  cases c.frequent.peek k <;> cases c.recent.peek k <;> rfl

theorem keys_elems (c : TwoQueue β) : c.elems.map Item.key = c.recent.keys ++ c.frequent.keys := by
  rw [elems, List.map_append, keys_eq_elems, keys_eq_elems]

/-! ## The invariant -/

/-- What every reachable cache keeps: three valid LRUs, `recentSize` below
`size`, pairwise disjoint keys, and at most `size` items. -/
structure Inv (c : TwoQueue β) : Prop where
  recent : c.recent.Valid
  frequent : c.frequent.Valid
  ghost : c.ghost.Valid
  recentCount : c.recent.maxCount = c.size
  frequentCount : c.frequent.maxCount = c.size
  ghostCount : 0 ≤ c.ghost.maxCount
  recentSize_nonneg : 0 ≤ c.recentSize
  recentSize_lt : c.recentSize < c.size
  recent_frequent : c.recent.keys.Disjoint c.frequent.keys
  recent_ghost : c.recent.keys.Disjoint c.ghost.keys
  frequent_ghost : c.frequent.keys.Disjoint c.ghost.keys
  len_le : ((c.recent.len + c.frequent.len : Nat) : Int) ≤ c.size

theorem Inv.valid (h : c.Inv) : c.Valid :=
  ⟨h.recent, h.frequent, h.recentCount, h.frequentCount, by linarith [h.recentSize_nonneg, h.recentSize_lt]⟩

theorem Inv.recentMax (h : c.Inv) : 0 ≤ c.recent.maxCount := h.valid.recentCount ▸ h.valid.size_nonneg

theorem Inv.frequentMax (h : c.Inv) : 0 ≤ c.frequent.maxCount := h.valid.frequentCount ▸ h.valid.size_nonneg

/-- `Elems()` lists each key once. -/
theorem Inv.nodup_keys (h : c.Inv) : (c.recent.keys ++ c.frequent.keys).Nodup :=
  List.nodup_append.mpr ⟨h.recent.nodup_keys, h.frequent.nodup_keys,
    fun _ ha _ hb hab => h.recent_frequent ha (hab ▸ hb)⟩

/-- Two pairs held with one key are one pair. -/
theorem Inv.eq_of_mem_view (h : c.Inv) {x y : UInt64 × β} (hx : x ∈ c.view) (hy : y ∈ c.view)
    (hxy : x.1 = y.1) : x = y := by
  have hnd : (c.view.map Prod.fst).Nodup := by
    rw [view, List.map_append]
    exact h.nodup_keys
  exact List.inj_on_of_nodup_map hnd hx hy hxy

section Shrink

variable (h : c.Inv) {l : LRU β}
include h

/-- Replacing `frequent` by a valid LRU of fewer items and keys keeps the
invariant. -/
theorem Inv.shrinkFrequent (hl : l.Valid) (hc : l.maxCount = c.frequent.maxCount)
    (hsub : l.keys ⊆ c.frequent.keys) (hlen : l.len ≤ c.frequent.len) : Inv { c with frequent := l } :=
  { h with
    frequent := hl
    frequentCount := hc.trans h.frequentCount
    recent_frequent := List.disjoint_of_subset_right hsub h.recent_frequent
    frequent_ghost := List.disjoint_of_subset_left hsub h.frequent_ghost
    len_le := by
      have := h.len_le
      dsimp only
      omega }

theorem Inv.shrinkRecent (hl : l.Valid) (hc : l.maxCount = c.recent.maxCount)
    (hsub : l.keys ⊆ c.recent.keys) (hlen : l.len ≤ c.recent.len) : Inv { c with recent := l } :=
  { h with
    recent := hl
    recentCount := hc.trans h.recentCount
    recent_frequent := List.disjoint_of_subset_left hsub h.recent_frequent
    recent_ghost := List.disjoint_of_subset_left hsub h.recent_ghost
    len_le := by
      have := h.len_le
      dsimp only
      omega }

theorem Inv.shrinkGhost {l : LRU Unit} (hl : l.Valid) (hc : l.maxCount = c.ghost.maxCount)
    (hsub : l.keys ⊆ c.ghost.keys) : Inv { c with ghost := l } :=
  { h with
    ghost := hl
    ghostCount := hc ▸ h.ghostCount
    recent_ghost := List.disjoint_of_subset_right hsub h.recent_ghost
    frequent_ghost := List.disjoint_of_subset_right hsub h.frequent_ghost }

end Shrink

/-! ## `ensureSpace` -/

/-- A full cache evicts from `recent` when `frequent` is empty: `recent` then
holds `size` items, more than `recentSize`. -/
theorem Inv.frequent_pos (h : c.Inv) (g : Bool) (hfull : ¬((c.recent.len + c.frequent.len : Nat) : Int) < c.size)
    (hkeep : ¬(c.recent.len > 0 ∧ ((c.recent.len : Int) > c.recentSize ∨
      ((c.recent.len : Int) = c.recentSize ∧ g = false)))) : 0 < c.frequent.len := by
  by_contra hzero
  have hle := h.len_le
  have hlt := h.recentSize_lt
  have hnn := h.recentSize_nonneg
  exact hkeep ⟨by omega, .inl (by omega)⟩

/-- `ensureSpace` keeps the invariant, leaves room for one more item, and
moves at most the oldest key of `recent` into `ghost`. -/
theorem Inv.ensureSpace (h : c.Inv) (g : Bool) :
    (c.ensureSpace g).Inv ∧
      (((c.ensureSpace g).recent.len + (c.ensureSpace g).frequent.len : Nat) : Int) < (c.ensureSpace g).size ∧
      (c.ensureSpace g).recent.keys ⊆ c.recent.keys ∧ (c.ensureSpace g).frequent.keys ⊆ c.frequent.keys ∧
      (c.ensureSpace g).ghost.keys ⊆ c.ghost.keys ++ c.recent.keys := by
  dsimp only [TwoQueue.ensureSpace]
  split_ifs with hroom hrecent
  · exact ⟨h, hroom, List.Subset.refl _, List.Subset.refl _, List.subset_append_left _ _⟩
  · -- the oldest key `e` of `recent` goes into `ghost`
    obtain ⟨e, he⟩ := h.recent.oldest_key hrecent.1
    obtain ⟨he_mem, he_not, hsub, hlen⟩ := h.recent.removeOldest_keys he
    have hghost : (c.ghost.put e ()).keys ⊆ e :: c.ghost.keys := h.ghost.keys_put h.ghostCount ()
    have he_freq : e ∉ c.frequent.keys := fun hf => h.recent_frequent he_mem hf
    rw [getAndRemoveOldest_eq h.recent.wf, he, Option.getD_some]
    refine ⟨{ h with
        recent := h.recent.removeOldest.1
        ghost := (h.ghost.put h.ghostCount e ()).1
        recentCount := maxCount_removeOldest.trans h.recentCount
        ghostCount := by rw [maxCount_put]; exact h.ghostCount
        recent_frequent := List.disjoint_of_subset_left hsub h.recent_frequent
        recent_ghost := List.disjoint_of_subset_right hghost
          (List.disjoint_cons_left.mpr ⟨he_not, List.disjoint_of_subset_right hsub h.recent_ghost.symm⟩).symm
        frequent_ghost := List.disjoint_of_subset_right hghost
          (List.disjoint_cons_left.mpr ⟨he_freq, h.frequent_ghost.symm⟩).symm
        len_le := ?_ }, ?_, hsub, List.Subset.refl _, ?_⟩
    · have := h.len_le
      dsimp only
      omega
    · have := h.len_le
      dsimp only
      omega
    · exact List.Subset.trans hghost (List.cons_subset.mpr ⟨List.mem_append_right _ he_mem, List.subset_append_left _ _⟩)
  · -- the oldest key of `frequent` is dropped
    obtain ⟨e, he⟩ := h.frequent.oldest_key (h.frequent_pos g hroom hrecent)
    obtain ⟨-, -, hsub, hlen⟩ := h.frequent.removeOldest_keys he
    refine ⟨h.shrinkFrequent h.frequent.removeOldest.1 maxCount_removeOldest hsub (by omega), ?_,
      List.Subset.refl _, hsub, List.subset_append_left _ _⟩
    have := h.len_le
    dsimp only
    omega

/-! ## `Put`, `Get` and `Remove` -/

section Put

variable (h : c.Inv) (v : β)
include h

/-- `Put` of a key in `frequent` updates it there. -/
theorem Inv.update (hf : k ∈ c.frequent.keys) :
    Inv { c with frequent := c.frequent.put k v } ∧ (k, v) ∈ ({ c with frequent := c.frequent.put k v } : TwoQueue β).view :=
  ⟨h.shrinkFrequent (h.frequent.put h.frequentMax k v).1 (maxCount_put k v)
      (List.Subset.trans (h.frequent.keys_put h.frequentMax v) (List.cons_subset.mpr ⟨hf, List.Subset.refl _⟩))
      (h.frequent.len_put_of_mem h.frequentMax v hf),
    mem_view.mpr (.inr (h.frequent.mem_put_self h.frequentMax v))⟩

/-- `Put` (or `Get`) of a key in `recent` moves it to `frequent`. -/
theorem Inv.promote (hr : k ∈ c.recent.keys) :
    Inv { c with recent := c.recent.remove k, frequent := c.frequent.put k v } ∧
      (k, v) ∈ ({ c with recent := c.recent.remove k, frequent := c.frequent.put k v } : TwoQueue β).view := by
  obtain ⟨hsub, hk⟩ := h.recent.keys_remove (k := k)
  have hput := h.frequent.keys_put h.frequentMax v (k := k)
  have hk_ghost : k ∉ c.ghost.keys := fun hg => h.recent_ghost hr hg
  refine ⟨{ h with
      recent := (h.recent.remove k).1
      frequent := (h.frequent.put h.frequentMax k v).1
      recentCount := (maxCount_remove k).trans h.recentCount
      frequentCount := (maxCount_put k v).trans h.frequentCount
      recent_frequent := (List.disjoint_of_subset_left hput
        (List.disjoint_cons_left.mpr ⟨hk, List.disjoint_of_subset_right hsub h.recent_frequent.symm⟩)).symm
      recent_ghost := List.disjoint_of_subset_left hsub h.recent_ghost
      frequent_ghost := List.disjoint_of_subset_left hput (List.disjoint_cons_left.mpr ⟨hk_ghost, h.frequent_ghost⟩)
      len_le := ?_ }, mem_view.mpr (.inr (h.frequent.mem_put_self h.frequentMax v))⟩
  have := h.len_le
  have := h.recent.len_remove_of_mem hr
  have := h.frequent.len_put_le h.frequentMax v (k := k)
  dsimp only
  omega

/-- `Put` of a ghost key, once there is room, drops it from `ghost` and puts
it in `frequent`. -/
theorem Inv.revive (hroom : ((c.recent.len + c.frequent.len : Nat) : Int) < c.size)
    (hr : k ∉ c.recent.keys) :
    Inv { c with ghost := c.ghost.remove k, frequent := c.frequent.put k v } ∧
      (k, v) ∈ ({ c with ghost := c.ghost.remove k, frequent := c.frequent.put k v } : TwoQueue β).view := by
  obtain ⟨hsub, hk⟩ := h.ghost.keys_remove (k := k)
  have hput := h.frequent.keys_put h.frequentMax v (k := k)
  refine ⟨{ h with
      ghost := (h.ghost.remove k).1
      frequent := (h.frequent.put h.frequentMax k v).1
      frequentCount := (maxCount_put k v).trans h.frequentCount
      ghostCount := by rw [maxCount_remove]; exact h.ghostCount
      recent_frequent := (List.disjoint_of_subset_left hput
        (List.disjoint_cons_left.mpr ⟨hr, h.recent_frequent.symm⟩)).symm
      recent_ghost := List.disjoint_of_subset_right hsub h.recent_ghost
      frequent_ghost := List.disjoint_of_subset_left hput
        (List.disjoint_cons_left.mpr ⟨hk, List.disjoint_of_subset_right hsub h.frequent_ghost⟩)
      len_le := ?_ }, mem_view.mpr (.inr (h.frequent.mem_put_self h.frequentMax v))⟩
  have := h.frequent.len_put_le h.frequentMax v (k := k)
  dsimp only
  omega

/-- `Put` of a new key, once there is room, puts it in `recent`. -/
theorem Inv.insert (hroom : ((c.recent.len + c.frequent.len : Nat) : Int) < c.size)
    (hf : k ∉ c.frequent.keys) (hg : k ∉ c.ghost.keys) :
    Inv { c with recent := c.recent.put k v } ∧ (k, v) ∈ ({ c with recent := c.recent.put k v } : TwoQueue β).view := by
  have hput := h.recent.keys_put h.recentMax v (k := k)
  refine ⟨{ h with
      recent := (h.recent.put h.recentMax k v).1
      recentCount := (maxCount_put k v).trans h.recentCount
      recent_frequent := List.disjoint_of_subset_left hput (List.disjoint_cons_left.mpr ⟨hf, h.recent_frequent⟩)
      recent_ghost := List.disjoint_of_subset_left hput (List.disjoint_cons_left.mpr ⟨hg, h.recent_ghost⟩)
      len_le := ?_ }, mem_view.mpr (.inl (h.recent.mem_put_self h.recentMax v))⟩
  have := h.recent.len_put_le h.recentMax v (k := k)
  dsimp only
  omega

end Put

/-- `Put` keeps the invariant and holds the pair it puts. -/
theorem Inv.put (h : c.Inv) (k : UInt64) (v : β) : (c.put k v).Inv ∧ (k, v) ∈ (c.put k v).view := by
  dsimp only [TwoQueue.put]
  split_ifs with hfreq hrec hghost
  · exact h.update v (h.frequent.contains_iff.mp hfreq)
  · exact h.promote v (h.recent.contains_iff.mp hrec)
  · obtain ⟨h₁, hroom, hr, -, -⟩ := h.ensureSpace true
    exact h₁.revive v hroom (fun hk => hrec (h.recent.contains_iff.mpr (hr hk)))
  · obtain ⟨h₁, hroom, -, hf, hg⟩ := h.ensureSpace false
    refine h₁.insert v hroom (fun hk => hfreq (h.frequent.contains_iff.mpr (hf hk))) (fun hk => ?_)
    -- a key of the new `ghost` was a ghost key or a key of `recent`
    rcases List.mem_append.mp (hg hk) with hk | hk
    · exact hghost (h.ghost.contains_iff.mpr hk)
    · exact hrec (h.recent.contains_iff.mpr hk)

theorem Inv.get (h : c.Inv) (k : UInt64) : (c.get k).1.Inv := by
  dsimp only [TwoQueue.get]
  split
  · exact h.shrinkFrequent (h.frequent.get k).1 (maxCount_get k) h.frequent.keys_get h.frequent.len_get_le
  · split
    · next val hval => exact (h.promote val (h.recent.mem_keys_of_peek hval)).1
    · exact h

theorem Inv.remove (h : c.Inv) (k : UInt64) : (c.remove k).Inv := by
  unfold TwoQueue.remove
  split_ifs
  · exact h.shrinkFrequent (h.frequent.remove k).1 (maxCount_remove k) h.frequent.keys_remove.1
      h.frequent.len_remove_le
  · exact h.shrinkRecent (h.recent.remove k).1 (maxCount_remove k) h.recent.keys_remove.1 h.recent.len_remove_le
  · exact h.shrinkGhost (h.ghost.remove k).1 (maxCount_remove k) h.ghost.keys_remove.1

/-! ## The values held -/

/-- Every pair the cache holds has the value `last` records for its key. -/
def Holds (last : UInt64 → Option β) (c : TwoQueue β) : Prop := ∀ x ∈ c.view, last x.1 = some x.2

variable {last : UInt64 → Option β}

theorem Holds.of_sub {c' : TwoQueue β} (hs : Holds last c) (hsub : ∀ x ∈ c'.view, x ∈ c.view) : Holds last c' :=
  fun x hx => hs x (hsub x hx)

/-- After `Put` of `(k, v)` the pair `(k, v)` is the only one with key `k`, so
the other pairs keep their keys' last values. -/
theorem Holds.put {c' : TwoQueue β} {v : β} (hs : Holds last c) (h' : c'.Inv) (hmem : (k, v) ∈ c'.view)
    (hw : Within c' c k v) : Holds (recordPut last (.put k v)) c' := by
  intro x hx
  by_cases hxk : x.1 = k
  · obtain rfl : x = (k, v) := h'.eq_of_mem_view hx hmem hxk
    simp [recordPut]
  · rcases hw x hx with rfl | hx'
    · exact absurd rfl hxk
    · simpa [recordPut, hxk] using hs x hx'

/-- One call keeps the invariant, and the values held stay the last ones put. -/
theorem Inv.apply (h : c.Inv) (hs : Holds last c) (op : Op β) :
    (c.apply op).Inv ∧ Holds (recordPut last op) (c.apply op) := by
  cases op with
  | put k v =>
    obtain ⟨h', hmem⟩ := h.put k v
    exact ⟨h', hs.put h' hmem (h.valid.put k v).2⟩
  | get k => exact ⟨h.get k, hs.of_sub (h.valid.get k).2.1⟩
  | peek k => exact ⟨h, hs⟩
  | remove k => exact ⟨h.remove k, hs.of_sub (h.valid.remove k).2⟩

theorem Inv.run (h : c.Inv) (hs : Holds last c) (ops : List (Op β)) :
    (c.run ops).Inv ∧ Holds (ops.foldl recordPut last) (c.run ops) := by
  induction ops generalizing c last with
  | nil => exact ⟨h, hs⟩
  | cons op ops ih =>
    obtain ⟨h', hs'⟩ := h.apply hs op
    exact ih h' hs'

/-- `Peek` of a key in `recent` or `frequent` returns the value `last`
records for it. -/
theorem Inv.peek_eq (h : c.Inv) (hs : Holds last c) (hk : k ∈ c.recent.keys ∨ k ∈ c.frequent.keys) :
    c.peek k = last k := by
  unfold TwoQueue.peek
  by_cases hf : k ∈ c.frequent.keys
  · obtain ⟨v, hv, hpeek⟩ := h.frequent.peek_of_mem hf
    rw [hpeek]
    exact (hs (k, v) (mem_view.mpr (.inr hv))).symm
  · obtain ⟨v, hv, hpeek⟩ := h.recent.peek_of_mem (hk.resolve_right hf)
    rw [h.frequent.peek_of_not_mem hf, hpeek]
    exact (hs (k, v) (mem_view.mpr (.inl hv))).symm

theorem inv_newTwoQueue {size : Int} (hsize : 1 ≤ size) : (newTwoQueue size : TwoQueue β).Inv where
  recent := valid_newLRU size
  frequent := valid_newLRU size
  ghost := valid_newLRU _
  recentCount := rfl
  frequentCount := rfl
  ghostCount := Verified.Binary64.truncScale_nonneg (by omega) 1
  recentSize_nonneg := Verified.Binary64.truncScale_nonneg (by omega) 2
  recentSize_lt := Verified.Binary64.truncScale_lt (by omega) le_rfl
  recent_frequent := List.disjoint_nil_left _
  recent_ghost := List.disjoint_nil_left _
  frequent_ghost := List.disjoint_nil_left _
  len_le := by
    show ((0 + 0 : Nat) : Int) ≤ size
    omega

theorem holds_newTwoQueue (last : UInt64 → Option β) (size : Int) : Holds last (newTwoQueue size : TwoQueue β) :=
  fun _ hx => absurd hx List.not_mem_nil

/-- The 2Q cache from `newTwoQueue(size)`, `size ≥ 1`, after any calls: its
three LRUs have pairwise disjoint keys, `recent` and `frequent` hold at most
`size` items, `Elems()` lists each key once, and `Peek` and `Get` of a key in
`recent` or `frequent` return the value of its last `Put`. -/
theorem two_queue_invariant (size : Int) (hsize : 1 ≤ size) (ops : List (Op β)) :
    let c := (newTwoQueue size : TwoQueue β).run ops
    c.recent.keys.Disjoint c.frequent.keys ∧ c.recent.keys.Disjoint c.ghost.keys ∧
      c.frequent.keys.Disjoint c.ghost.keys ∧ ((c.recent.len + c.frequent.len : Nat) : Int) ≤ size ∧
      (c.elems.map Item.key).Nodup ∧
      ∀ k, k ∈ c.recent.keys ∨ k ∈ c.frequent.keys → c.peek k = lastPut ops k ∧ (c.get k).2 = lastPut ops k := by
  intro c
  obtain ⟨h, hs⟩ := (inv_newTwoQueue hsize).run (holds_newTwoQueue (fun _ => none) size) ops
  have hlast : ∀ k, ops.foldl recordPut (fun _ => none) k = lastPut ops k := fun k => by
    rw [foldl_recordPut, Option.or_none]
  refine ⟨h.recent_frequent, h.recent_ghost, h.frequent_ghost, ?_, ?_, fun k hk => ?_⟩
  · have hlen := h.len_le
    rw [size_run] at hlen
    exact hlen
  · rw [keys_elems]
    exact h.nodup_keys
  · rw [h.valid.get_snd, h.peek_eq hs hk, hlast]
    exact ⟨rfl, rfl⟩

/-- Calls on a cache of four items that fill it, evict into `ghost` and bring a
ghost key back. -/
def demoOps : List (Op Nat) :=
  [.put 1 10, .put 2 20, .put 3 30, .get 1, .put 4 40, .put 5 50, .put 6 60, .put 2 21, .remove 3, .peek 2]

theorem two_queue_invariant_demo :
    (1 : Int) ≤ 4 ∧
      let c := (newTwoQueue 4 : TwoQueue Nat).run demoOps
      c.recent.keys.Disjoint c.frequent.keys ∧ c.recent.keys.Disjoint c.ghost.keys ∧
        c.frequent.keys.Disjoint c.ghost.keys ∧ ((c.recent.len + c.frequent.len : Nat) : Int) ≤ 4 ∧
        (c.elems.map Item.key).Nodup ∧
        ∀ k, k ∈ c.recent.keys ∨ k ∈ c.frequent.keys →
          c.peek k = lastPut demoOps k ∧ (c.get k).2 = lastPut demoOps k :=
  ⟨by decide, two_queue_invariant 4 (by decide) demoOps⟩

end TwoQueue

end PlacementDriver.Cache
