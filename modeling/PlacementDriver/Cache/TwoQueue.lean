import PlacementDriver.Cache.LRURefinement
import PlacementDriver.Verified.Binary64

/-!
# `cache.TwoQueue`

The 2Q cache of `server/cache/two_queue.go` keeps three LRUs: `recent` for
keys seen once, `frequent` for keys seen again, and `ghost` for the keys
recently evicted from `recent` (with nil values). `Put` of a key in
`frequent` updates it there; of a key in `recent` moves it to `frequent`; of
a ghost key makes room, drops the ghost and puts it in `frequent`; of a new
key makes room and puts it in `recent`. `ensureSpace` evicts the oldest of
`recent` into `ghost` while `recent` is over its share, and the oldest of
`frequent` otherwise.

The sizes are computed in `float64`, as `int(float64(size) * ratio)`: with
`Float` and `Float.toInt64` (truncation toward zero) for any ratio, and
exactly for the default ratios, which are powers of two (`newTwoQueue`). The
ghost LRU holds only nil values, so its values are `Unit`.

`Valid` asks that `recent` and `frequent` be valid LRUs bounded by a
non-negative `size`. Under it every call reads and writes its two LRUs as the
reference model of `LRURefinement` does, so a value the cache holds after a
call is the value just put or one it held before (`Valid.put`, `Valid.remove`,
`Valid.get`); hence a property of every value put holds of every value held
(`AllStored`).
-/

namespace PlacementDriver.Cache

open LRU

/-- `TwoQueue`. -/
structure TwoQueue (β : Type) where
  size : Int
  recentSize : Int
  recent : LRU β
  frequent : LRU β
  ghost : LRU Unit

namespace TwoQueue

variable {β : Type}

/-- `defaultRecentRatio`. -/
def defaultRecentRatio : Float := 0.25

/-- `defaultGhostRatio`. -/
def defaultGhostRatio : Float := 0.50

/-- `newTwoQueueParams`. -/
def newTwoQueueParams (size : Int) (recentRatio ghostRatio : Float) : TwoQueue β :=
  let recentSize := (Float.ofInt size * recentRatio).toInt64.toInt
  let ghostSize := (Float.ofInt size * ghostRatio).toInt64.toInt
  ⟨size, recentSize, newLRU size, newLRU size, newLRU ghostSize⟩

/-- `newTwoQueue(size)`, which is `newTwoQueueParams(size, defaultRecentRatio,
defaultGhostRatio)`. The ratios are `2 ^ -2` and `2 ^ -1`, by which a binary64
product is exact, so `int(float64(size) * ratio)` is computed here exactly,
as `Binary64.truncScale`. -/
def newTwoQueue (size : Int) : TwoQueue β :=
  ⟨size, Verified.Binary64.truncScale size 2, newLRU size, newLRU size, newLRU (Verified.Binary64.truncScale size 1)⟩

/-- `ensureSpace`. -/
def ensureSpace (c : TwoQueue β) (ghost : Bool) : TwoQueue β :=
  let recentLen := c.recent.len
  let frequentLen := c.frequent.len
  if ((recentLen + frequentLen : Nat) : Int) < c.size then c
  else if recentLen > 0 ∧ ((recentLen : Int) > c.recentSize ∨ ((recentLen : Int) = c.recentSize ∧ ghost = false)) then
    -- `k, _, _ := c.recent.getAndRemoveOldest()`: a zero key when nothing was removed
    let evicted := c.recent.getAndRemoveOldest
    { c with recent := evicted.1, ghost := c.ghost.put ((evicted.2.map Prod.fst).getD 0) () }
  else
    { c with frequent := c.frequent.removeOldest }

/-- `Put`. -/
def put (c : TwoQueue β) (key : UInt64) (value : β) : TwoQueue β :=
  if c.frequent.contains key then
    { c with frequent := c.frequent.put key value }
  else if c.recent.contains key then
    { c with recent := c.recent.remove key, frequent := c.frequent.put key value }
  else if c.ghost.contains key then
    let c := c.ensureSpace true
    { c with ghost := c.ghost.remove key, frequent := c.frequent.put key value }
  else
    let c := c.ensureSpace false
    { c with recent := c.recent.put key value }

/-- `Get`: a key found in `recent` moves to `frequent`. -/
def get (c : TwoQueue β) (key : UInt64) : TwoQueue β × Option β :=
  let found := c.frequent.get key
  match found.2 with
  | some val => ({ c with frequent := found.1 }, some val)
  | none =>
      match c.recent.peek key with
      | some val => ({ c with recent := c.recent.remove key, frequent := c.frequent.put key val }, some val)
      | none => (c, none)

/-- `Peek`. -/
def peek (c : TwoQueue β) (key : UInt64) : Option β :=
  match c.frequent.peek key with
  | some val => some val
  | none => c.recent.peek key

/-- `Remove`: from the first LRU whose `remove` reports the key. -/
def remove (c : TwoQueue β) (key : UInt64) : TwoQueue β :=
  if c.frequent.contains key then { c with frequent := c.frequent.remove key }
  else if c.recent.contains key then { c with recent := c.recent.remove key }
  else { c with ghost := c.ghost.remove key }

/-- `Elems`. -/
def elems (c : TwoQueue β) : List (Item β) := c.recent.elems ++ c.frequent.elems

/-- `Len`. -/
def len (c : TwoQueue β) : Nat := c.recent.len + c.frequent.len

/-! ## Validity -/

/-- `recent` and `frequent` are valid LRUs of the cache's non-negative size. -/
structure Valid (c : TwoQueue β) : Prop where
  recent : c.recent.Valid
  frequent : c.frequent.Valid
  recentCount : c.recent.maxCount = c.size
  frequentCount : c.frequent.maxCount = c.size
  size_nonneg : 0 ≤ c.size

/-- The pairs the cache holds, `recent` first as `Elems` lists them. -/
def view (c : TwoQueue β) : List (UInt64 × β) := c.recent.view ++ c.frequent.view

/-- One call keeps every pair it does not put. -/
def Within (c' c : TwoQueue β) (key : UInt64) (value : β) : Prop :=
  ∀ x ∈ c'.view, x = (key, value) ∨ x ∈ c.view

variable {c : TwoQueue β}

theorem valid_newTwoQueue {size : Int} (hsize : 0 ≤ size) : (newTwoQueue size : TwoQueue β).Valid :=
  ⟨valid_newLRU size, valid_newLRU size, rfl, rfl, hsize⟩

@[simp] theorem view_newTwoQueue (size : Int) : (newTwoQueue size : TwoQueue β).view = [] := rfl

theorem mem_view {x : UInt64 × β} : x ∈ c.view ↔ x ∈ c.recent.view ∨ x ∈ c.frequent.view :=
  List.mem_append

/-- `ensureSpace` only drops pairs. -/
theorem Valid.ensureSpace (h : c.Valid) (ghost : Bool) :
    (c.ensureSpace ghost).Valid ∧ ∀ x ∈ (c.ensureSpace ghost).view, x ∈ c.view := by
  dsimp only [TwoQueue.ensureSpace]
  split_ifs with hroom hrecent
  · exact ⟨h, fun _ hx => hx⟩
  · -- evict the oldest of `recent` into `ghost`
    obtain ⟨hvalid, hview⟩ := h.recent.removeOldest
    rw [getAndRemoveOldest_eq h.recent.wf]
    refine ⟨⟨hvalid, h.frequent, ?_, h.frequentCount, h.size_nonneg⟩, fun x hx => ?_⟩
    · rw [← h.recentCount]
      exact maxCount_removeOldest
    · rcases mem_view.mp hx with hx | hx
      · rw [hview] at hx
        exact mem_view.mpr (.inl (List.mem_of_mem_dropLast hx))
      · exact mem_view.mpr (.inr hx)
  · -- evict the oldest of `frequent`
    obtain ⟨hvalid, hview⟩ := h.frequent.removeOldest
    refine ⟨⟨h.recent, hvalid, h.recentCount, ?_, h.size_nonneg⟩, fun x hx => ?_⟩
    · rw [← h.frequentCount]
      exact maxCount_removeOldest
    · rcases mem_view.mp hx with hx | hx
      · exact mem_view.mpr (.inl hx)
      · rw [hview] at hx
        exact mem_view.mpr (.inr (List.mem_of_mem_dropLast hx))

theorem within_of_parts {c' : TwoQueue β} {k : UInt64} {v : β}
    (hr : ∀ x ∈ c'.recent.view, x = (k, v) ∨ x ∈ c.recent.view)
    (hf : ∀ x ∈ c'.frequent.view, x = (k, v) ∨ x ∈ c.frequent.view) : Within c' c k v := by
  intro x hx
  rcases mem_view.mp hx with hx | hx
  · exact (hr x hx).imp_right (fun hx => mem_view.mpr (.inl hx))
  · exact (hf x hx).imp_right (fun hx => mem_view.mpr (.inr hx))

theorem Within.of_sub {c' c₁ : TwoQueue β} {k : UInt64} {v : β} (hw : Within c' c₁ k v)
    (hsub : ∀ x ∈ c₁.view, x ∈ c.view) : Within c' c k v :=
  fun x hx => (hw x hx).imp_right (hsub x)

/-- `Put` keeps the cache valid and holds the new pair and pairs held before. -/
theorem Valid.put (h : c.Valid) (k : UInt64) (v : β) : (c.put k v).Valid ∧ Within (c.put k v) c k v := by
  dsimp only [TwoQueue.put]
  split_ifs with hfreq hrec hghost
  · -- update in `frequent`
    have hm : 0 ≤ c.frequent.maxCount := h.frequentCount ▸ h.size_nonneg
    refine ⟨⟨h.recent, (h.frequent.put hm k v).1, h.recentCount, ?_, h.size_nonneg⟩, ?_⟩
    · rw [maxCount_put, h.frequentCount]
    · exact within_of_parts (fun _ hx => .inr hx) (fun _ hx => h.frequent.mem_put_view hm hx)
  · -- move from `recent` to `frequent`
    have hm : 0 ≤ c.frequent.maxCount := h.frequentCount ▸ h.size_nonneg
    refine ⟨⟨(h.recent.remove k).1, (h.frequent.put hm k v).1, ?_, ?_, h.size_nonneg⟩, ?_⟩
    · rw [maxCount_remove, h.recentCount]
    · rw [maxCount_put, h.frequentCount]
    · exact within_of_parts (fun _ hx => .inr (h.recent.mem_remove_view hx))
        (fun _ hx => h.frequent.mem_put_view hm hx)
  · -- a ghost key comes back into `frequent`
    obtain ⟨h₁, hsub⟩ := h.ensureSpace true
    have hm : 0 ≤ (c.ensureSpace true).frequent.maxCount := h₁.frequentCount ▸ h₁.size_nonneg
    refine ⟨⟨h₁.recent, (h₁.frequent.put hm k v).1, h₁.recentCount, ?_, h₁.size_nonneg⟩, ?_⟩
    · rw [maxCount_put, h₁.frequentCount]
    · refine Within.of_sub ?_ hsub
      exact within_of_parts (fun _ hx => .inr hx) (fun _ hx => h₁.frequent.mem_put_view hm hx)
  · -- a new key goes into `recent`
    obtain ⟨h₁, hsub⟩ := h.ensureSpace false
    have hm : 0 ≤ (c.ensureSpace false).recent.maxCount := h₁.recentCount ▸ h₁.size_nonneg
    refine ⟨⟨(h₁.recent.put hm k v).1, h₁.frequent, ?_, h₁.frequentCount, h₁.size_nonneg⟩, ?_⟩
    · rw [maxCount_put, h₁.recentCount]
    · refine Within.of_sub ?_ hsub
      exact within_of_parts (fun _ hx => h₁.recent.mem_put_view hm hx) (fun _ hx => .inr hx)

/-- `Remove` keeps the cache valid and only drops pairs. -/
theorem Valid.remove (h : c.Valid) (k : UInt64) :
    (c.remove k).Valid ∧ ∀ x ∈ (c.remove k).view, x ∈ c.view := by
  unfold TwoQueue.remove
  split_ifs with hfreq hrec
  · refine ⟨⟨h.recent, (h.frequent.remove k).1, h.recentCount, ?_, h.size_nonneg⟩, fun x hx => ?_⟩
    · rw [maxCount_remove, h.frequentCount]
    · rcases mem_view.mp hx with hx | hx
      · exact mem_view.mpr (.inl hx)
      · exact mem_view.mpr (.inr (h.frequent.mem_remove_view hx))
  · refine ⟨⟨(h.recent.remove k).1, h.frequent, ?_, h.frequentCount, h.size_nonneg⟩, fun x hx => ?_⟩
    · rw [maxCount_remove, h.recentCount]
    · rcases mem_view.mp hx with hx | hx
      · exact mem_view.mpr (.inl (h.recent.mem_remove_view hx))
      · exact mem_view.mpr (.inr hx)
  · exact ⟨⟨h.recent, h.frequent, h.recentCount, h.frequentCount, h.size_nonneg⟩, fun _ hx => hx⟩

/-- `Get` keeps the cache valid, only moves pairs, and returns the value of a
held pair. -/
theorem Valid.get (h : c.Valid) (k : UInt64) :
    (c.get k).1.Valid ∧ (∀ x ∈ (c.get k).1.view, x ∈ c.view) ∧
      ∀ v, (c.get k).2 = some v → (k, v) ∈ c.view := by
  obtain ⟨hfv, hfview, hfout⟩ := h.frequent.get k
  dsimp only [TwoQueue.get]
  split
  · -- found in `frequent`, which moves it to its front
    next val hval =>
      refine ⟨⟨h.recent, hfv, h.recentCount, ?_, h.size_nonneg⟩, fun x hx => ?_, fun v hv => ?_⟩
      · rw [← h.frequentCount]
        exact maxCount_get k
      · rcases mem_view.mp hx with hx | hx
        · exact mem_view.mpr (.inl hx)
        · rw [hfview] at hx
          exact mem_view.mpr (.inr (mem_refGet hx))
      · cases hv
        rw [hfout] at hval
        exact mem_view.mpr (.inr (refGet_eq_some hval))
  · split
    · -- found in `recent`: it moves to `frequent`
      next val hval =>
        have hm : 0 ≤ c.frequent.maxCount := h.frequentCount ▸ h.size_nonneg
        have hmem : (k, val) ∈ c.view := by
          rw [h.recent.peek] at hval
          exact mem_view.mpr (.inl (refPeek_eq_some hval))
        refine ⟨⟨(h.recent.remove k).1, (h.frequent.put hm k val).1, ?_, ?_, h.size_nonneg⟩,
          fun x hx => ?_, fun v hv => ?_⟩
        · rw [maxCount_remove, h.recentCount]
        · rw [maxCount_put, h.frequentCount]
        · rcases mem_view.mp hx with hx | hx
          · exact mem_view.mpr (.inl (h.recent.mem_remove_view hx))
          · rcases h.frequent.mem_put_view hm hx with rfl | hx
            · exact hmem
            · exact mem_view.mpr (.inr hx)
        · cases hv
          exact hmem
    · exact ⟨h, fun _ hx => hx, fun _ hv => by cases hv⟩

/-- What `Peek` returns is the value of a held pair. -/
theorem Valid.peek_eq_some (h : c.Valid) {k : UInt64} {v : β} (hv : c.peek k = some v) :
    (k, v) ∈ c.view := by
  unfold TwoQueue.peek at hv
  split at hv
  · next val hval =>
      cases hv
      rw [h.frequent.peek] at hval
      exact mem_view.mpr (.inr (refPeek_eq_some hval))
  · rw [h.recent.peek] at hv
    exact mem_view.mpr (.inl (refPeek_eq_some hv))

/-! ## Properties of every value held -/

/-- Every value the cache holds satisfies `P`. -/
def AllStored (P : β → Prop) (c : TwoQueue β) : Prop := ∀ x ∈ c.view, P x.2

theorem allStored_newTwoQueue (P : β → Prop) (size : Int) : AllStored P (newTwoQueue size : TwoQueue β) :=
  fun _ hx => absurd hx List.not_mem_nil

theorem AllStored.of_within {P : β → Prop} {c' : TwoQueue β} {k : UInt64} {v : β}
    (hs : AllStored P c) (hw : Within c' c k v) (hv : P v) : AllStored P c' := by
  intro x hx
  rcases hw x hx with rfl | hx
  · exact hv
  · exact hs x hx

theorem AllStored.of_sub {P : β → Prop} {c' : TwoQueue β} (hs : AllStored P c)
    (hsub : ∀ x ∈ c'.view, x ∈ c.view) : AllStored P c' :=
  fun x hx => hs x (hsub x hx)

end TwoQueue

end PlacementDriver.Cache
