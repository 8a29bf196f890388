import Mathlib.Data.List.AList

/-!
# `cache.TTL`

`TTL` (in `server/cache/ttl.go`) keeps each item with the time it expires,
`ttl` after the `Put` that wrote it. `Get` returns an item that has not
expired, `expire.Before(now)` being the test; the loop of `doGC` deletes,
every `gcInterval`, the items that have. `TTLUint64` keeps ids only: its
values are `nil`, and `Exists` is a `Get` that found one.

Times are nanoseconds, each `time.Now()` the `now` of its call. The map is an
`AList` from key to value and expiry, and the range of `doGC` over it a loop
over its keys.

A GC pass deletes only what `Get` no longer returns, at the pass's time and at
any later time. So over every run of `Put`, `Remove`, `Clear` and GC passes,
a `Get` at a time no earlier than the passes answers as the same run without
the passes does: the goroutine of `doGC` only bounds the memory the cache
holds.

## Main results

* `lookup_gc`: a pass removes exactly the expired items.
* `get_gc`: a pass changes no `Get` at its time or later.
* `gc_is_invisible_to_get`: the run lemma.
-/

namespace PlacementDriver.Cache

/-- `TTL`, with times in nanoseconds. -/
structure TTL (β : Type) where
  items : AList (fun _ : UInt64 => β × Int)
  ttl : Int
  gcInterval : Int

namespace TTL

variable {β : Type}

/-- `NewTTL(gcInterval, ttl)`. -/
def newTTL (gcInterval ttl : Int) : TTL β := ⟨∅, ttl, gcInterval⟩

/-- `PutWithTTL(key, value, ttl)` at time `now`. -/
def putWithTTL (c : TTL β) (now : Int) (key : UInt64) (value : β) (ttl : Int) : TTL β :=
  { c with items := c.items.insert key (value, now + ttl) }

/-- `Put(key, value)` at time `now`. -/
def put (c : TTL β) (now : Int) (key : UInt64) (value : β) : TTL β :=
  c.putWithTTL now key value c.ttl

/-- `Get(key)` at time `now`. -/
def get (c : TTL β) (now : Int) (key : UInt64) : Option β :=
  match c.items.lookup key with
  | none => none
  | some (value, expire) => if expire < now then none else some value

/-- `Remove(key)`. -/
def remove (c : TTL β) (key : UInt64) : TTL β :=
  { c with items := c.items.erase key }

/-- `Len()`. -/
def len (c : TTL β) : Nat := c.items.entries.length

/-- `Clear()`. -/
def clear (c : TTL β) : TTL β :=
  { c with items := ∅ }

/-- The body of the loop of one `doGC` pass at time `now`, for one key. -/
def gcKey (now : Int) (items : AList (fun _ : UInt64 => β × Int)) (key : UInt64) :
    AList (fun _ : UInt64 => β × Int) :=
  match items.lookup key with
  | some (_, expire) => if expire < now then items.erase key else items
  | none => items

/-- One pass of the loop of `doGC` at time `now`. -/
def gc (c : TTL β) (now : Int) : TTL β :=
  { c with items := c.items.keys.foldl (gcKey now) c.items }

/-! ## What a GC pass removes -/

/-- The item under a key as a pass at time `now` leaves it. -/
def unexpired (now : Int) (item : Option (β × Int)) : Option (β × Int) :=
  item.filter fun p => !decide (p.2 < now)

theorem lookup_gcKey (now : Int) (items : AList (fun _ : UInt64 => β × Int)) (key k : UInt64) :
    (gcKey now items key).lookup k = if k = key then unexpired now (items.lookup k) else items.lookup k := by
  unfold gcKey
  cases h : items.lookup key with
  | none =>
    split_ifs with hk
    · subst hk
      simp [unexpired, h]
    · rfl
  | some p =>
    obtain ⟨v, e⟩ := p
    dsimp only
    -- the key's own item is erased when expired and kept otherwise; other keys are untouched
    by_cases he : e < now
    · rw [if_pos he]
      split_ifs with hk
      · subst hk
        simp [unexpired, h, he, Option.filter_some]
      · exact AList.lookup_erase_ne hk
    · rw [if_neg he]
      split_ifs with hk
      · subst hk
        simp [unexpired, h, he, Option.filter_some]
      · rfl

theorem unexpired_unexpired (now : Int) (item : Option (β × Int)) :
    unexpired now (unexpired now item) = unexpired now item := by
  unfold unexpired
  cases item with
  | none => rfl
  | some p => by_cases hp : p.2 < now <;> simp [hp, Option.filter_some]

/-- The loop over any list of keys removes the expired items of those keys. -/
theorem lookup_foldl_gcKey (now : Int) (k : UInt64) :
    ∀ (keys : List UInt64) (items : AList (fun _ : UInt64 => β × Int)),
      (keys.foldl (gcKey now) items).lookup k =
        if k ∈ keys then unexpired now (items.lookup k) else items.lookup k := by
  intro keys
  induction keys with
  | nil => simp
  | cons key keys ih =>
    intro items
    rw [List.foldl_cons, ih, lookup_gcKey]
    by_cases hk : k = key
    · subst hk
      simp [unexpired_unexpired]
    · by_cases hmem : k ∈ keys <;> simp [hk, hmem]

/-- A pass removes exactly the items that expired before its time. -/
theorem lookup_gc (c : TTL β) (now : Int) (k : UInt64) :
    (c.gc now).items.lookup k = unexpired now (c.items.lookup k) := by
  show (c.items.keys.foldl (gcKey now) c.items).lookup k = _
  rw [lookup_foldl_gcKey]
  split_ifs with hk
  · rfl
  · rw [AList.lookup_eq_none.mpr hk]
    rfl

/-- A pass changes no `Get` at its time or later. -/
theorem get_gc (c : TTL β) {now t : Int} (ht : now ≤ t) (k : UInt64) : (c.gc now).get t k = c.get t k := by
  unfold get
  rw [lookup_gc]
  cases c.items.lookup k with
  | none => rfl
  | some p =>
    obtain ⟨v, e⟩ := p
    by_cases he : e < now
    · have het : e < t := by omega
      simp [unexpired, he, het, Option.filter_some]
    · simp [unexpired, he, Option.filter_some]

/-! ## Runs -/

/-- The calls that change the cache: `Put` at a time, `Remove`, `Clear`, and a
pass of `doGC` at a time. -/
inductive Event (β : Type)
  | put (now : Int) (key : UInt64) (value : β)
  | remove (key : UInt64)
  | clear
  | gc (now : Int)

/-- What one call does. -/
def step (c : TTL β) : Event β → TTL β
  | .put now key value => c.put now key value
  | .remove key => c.remove key
  | .clear => c.clear
  | .gc now => c.gc now

/-- A run of calls. -/
def run (c : TTL β) (events : List (Event β)) : TTL β :=
  events.foldl step c

/-- Whether a call is a GC pass. -/
def Event.isGC : Event β → Bool
  | .gc _ => true
  | _ => false

/-- Two caches that answer every `Get` at time `t` alike. -/
def AgreeAt (t : Int) (c c' : TTL β) : Prop := ∀ k, c.get t k = c'.get t k

/-- Every call but a pass does the same to two caches that agree at `t`. -/
theorem AgreeAt.step_of_not_gc {t : Int} {c c' : TTL β} (h : AgreeAt t c c') (httl : c.ttl = c'.ttl) {e : Event β}
    (he : e.isGC = false) : AgreeAt t (c.step e) (c'.step e) := by
  intro k
  cases e with
  | put now key value =>
    by_cases hk : k = key
    · subst hk
      simp [TTL.step, put, putWithTTL, get, httl]
    · have := h k
      simpa [TTL.step, put, putWithTTL, get, AList.lookup_insert_ne hk] using this
  | remove key =>
    by_cases hk : k = key
    · subst hk
      simp [TTL.step, remove, get]
    · have := h k
      simpa [TTL.step, remove, get, AList.lookup_erase_ne hk] using this
  | clear => simp [TTL.step, clear, get]
  | gc now => simp [Event.isGC] at he

/-- The passes of `doGC` are invisible to `Get`: after any run whose passes
all come no later than `t`, every `Get` at time `t` answers as after the same
run without the passes. -/
theorem gc_is_invisible_to_get (c : TTL β) (t : Int) :
    ∀ (events : List (Event β)), (∀ now, Event.gc now ∈ events → now ≤ t) →
      ∀ k, (c.run events).get t k = (c.run (events.filter fun e => !e.isGC)).get t k := by
  -- the run lemma carries `AgreeAt t` and the equal `ttl` from any two caches
  suffices hrun : ∀ (events : List (Event β)) (c c' : TTL β), AgreeAt t c c' → c.ttl = c'.ttl →
      (∀ now, Event.gc now ∈ events → now ≤ t) →
      AgreeAt t (c.run events) (c'.run (events.filter fun e => !e.isGC)) from
    fun events hgc => hrun events c c (fun _ => rfl) rfl hgc
  intro events
  induction events with
  | nil => intro c c' h _ _; exact h
  | cons e events ih =>
    intro c c' h httl hgc
    have hrest : ∀ now, Event.gc now ∈ events → now ≤ t := fun now hm => hgc now (List.mem_cons_of_mem e hm)
    cases he : e.isGC
    · -- a call both runs make
      have hstep := h.step_of_not_gc httl he
      have httl' : (c.step e).ttl = (c'.step e).ttl := by
        cases e <;> simp_all [step, put, putWithTTL, remove, clear, gc]
      simpa [run, List.filter_cons, he] using ih _ _ hstep httl' hrest
    · -- a pass only the first run makes
      cases e with
      | gc now =>
        have hnow : now ≤ t := hgc now List.mem_cons_self
        have hgc' : AgreeAt t (c.gc now) c' := fun k => (get_gc c hnow k).trans (h k)
        simpa [run, List.filter_cons, Event.isGC, TTL.step] using ih _ _ hgc' httl hrest
      | _ => simp [Event.isGC] at he

theorem gc_is_invisible_to_get_taint :
    (∀ now, Event.gc now ∈ [Event.put 0 1 (), .gc 2000000000, .put 3000000000 2 ()] → now ≤ 4000000000) ∧
      ∀ k, ((newTTL 1000000000 300000000000 : TTL Unit).run
          [Event.put 0 1 (), .gc 2000000000, .put 3000000000 2 ()]).get 4000000000 k =
        ((newTTL 1000000000 300000000000 : TTL Unit).run
          ([Event.put 0 1 (), .gc 2000000000, .put 3000000000 2 ()].filter fun e => !e.isGC)).get 4000000000 k := by
  have hgc : ∀ now, Event.gc now ∈ [Event.put 0 1 (), .gc 2000000000, .put 3000000000 2 ()] →
      now ≤ 4000000000 := by
    intro now h
    simp only [List.mem_cons, reduceCtorEq, Event.gc.injEq, List.not_mem_nil, or_false, false_or] at h
    omega
  exact ⟨hgc, gc_is_invisible_to_get _ 4000000000 _ hgc⟩

end TTL

/-- `TTLUint64`: a `TTL` of ids with `nil` values. -/
abbrev TTLUint64 := TTL Unit

namespace TTLUint64

/-- `NewIDTTL(gcInterval, ttl)`. -/
def newIDTTL (gcInterval ttl : Int) : TTLUint64 := TTL.newTTL gcInterval ttl

/-- `Put(id)` at time `now`. -/
def put (c : TTLUint64) (now : Int) (id : UInt64) : TTLUint64 := TTL.put c now id ()

end TTLUint64

/-- `Exists(id)` at time `now`. -/
def TTLUint64.exists (c : TTLUint64) (now : Int) (id : UInt64) : Bool := (TTL.get c now id).isSome

end PlacementDriver.Cache
