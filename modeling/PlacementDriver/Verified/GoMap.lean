import Mathlib

/-!
# Exclusive claims in a map whose iteration order is open

A Go `map` is iterated by `range` in an order the language leaves open, so a
loop over it that returns at the first entry passing a test is `find?` over
some permutation of the map's entries. Its result does not depend on the order
exactly when at most one entry passes the test.

This file states that for a map `s` whose values claim items through a test
`P : β → γ → Bool`: `Exclusive P s` says that each item is claimed by the
value of at most one key.

## Main results

* `find?_eq_of_perm`: `find?` agrees on two orders of a list in which at most
  one element passes the test.
* `Exclusive.insert`: writing a value that claims only what no other key
  claims keeps the claims exclusive; `Exclusive.insert_of_lookup` is the case
  of an update that adds only unclaimed items (`ClaimsFree`).
* `Exclusive.find?_perm`: over an exclusive map, the first entry claiming an
  item is the same in every iteration order.
* `any_entries_iff`: a loop that tests every entry finds one exactly when some
  key's value passes.

`countValues` counts the keys whose value passes a test, as a loop over the
map does: a write changes the count by at most one (`countValues_insert_le`),
a delete never raises it, and a write that keeps the key's value passing or
failing leaves it (`countValues_insert_of_lookup`).

`addAt` is the counter update `m[k] += v` of a map of numbers, and
`appendAt` the update `m[k] = append(m[k], x)` of a map of lists, whose
contents after a loop `lookup_foldl_appendAt` gives.
-/

namespace PlacementDriver.Verified.GoMap

section Find

variable {δ : Type*} {p : δ → Bool}

/-- In a list where at most one element passes `p`, every order of the list
finds the same first element. -/
theorem find?_eq_of_perm {l l' : List δ} (hp : l'.Perm l)
    (hu : ∀ a ∈ l, ∀ b ∈ l, p a = true → p b = true → a = b) :
    l'.find? p = l.find? p := by
  cases h : l.find? p with
  | none =>
    rw [List.find?_eq_none] at h ⊢
    exact fun a ha => h a (hp.subset ha)
  | some r =>
    have hr : r ∈ l := List.mem_of_find?_eq_some h
    have hpr : p r = true := List.find?_some h
    cases h' : l'.find? p with
    | none =>
      rw [List.find?_eq_none] at h'
      exact absurd hpr (h' r (hp.symm.subset hr))
    | some r' =>
      have hr' : r' ∈ l := hp.subset (List.mem_of_find?_eq_some h')
      rw [hu r' hr' r hr (List.find?_some h') hpr]

end Find

variable {α β γ : Type*} [DecidableEq α]

theorem lookup_insert_eq_some {s : AList (fun _ : α => β)} {x y : α} {b v : β} :
    (s.insert x b).lookup y = some v ↔ (y = x ∧ v = b) ∨ (y ≠ x ∧ s.lookup y = some v) := by
  by_cases hyx : y = x
  · subst hyx
    rw [AList.lookup_insert, Option.some_inj]
    constructor
    · exact fun h => .inl ⟨rfl, h.symm⟩
    · rintro (⟨-, rfl⟩ | ⟨hne, -⟩)
      · rfl
      · exact absurd rfl hne
  · rw [AList.lookup_insert_ne hyx]
    constructor
    · exact fun h => .inr ⟨hyx, h⟩
    · rintro (⟨hxy, -⟩ | ⟨-, h⟩)
      · exact absurd hxy hyx
      · exact h

/-- A loop over the entries that tests each value finds one exactly when some
key's value passes. -/
theorem any_entries_iff (s : AList (fun _ : α => β)) (p : β → Bool) :
    s.entries.any (fun e => p e.2) = true ↔ ∃ x v, s.lookup x = some v ∧ p v = true := by
  rw [List.any_eq_true]
  constructor
  · rintro ⟨⟨x, v⟩, hmem, hpv⟩
    exact ⟨x, v, AList.mem_lookup_iff.mpr hmem, hpv⟩
  · rintro ⟨x, v, hl, hpv⟩
    exact ⟨⟨x, v⟩, AList.mem_lookup_iff.mp hl, hpv⟩

/-- `m[k] += v`: a key the map lacks reads as zero. -/
def addAt [Add β] [Zero β] (m : AList (fun _ : α => β)) (k : α) (v : β) : AList (fun _ : α => β) :=
  m.insert k ((m.lookup k).getD 0 + v)

/-- A read `m[k']` after `m[k] += v`. -/
theorem getD_lookup_addAt [AddZeroClass β] (m : AList (fun _ : α => β)) (k k' : α) (v : β) :
    ((addAt m k v).lookup k').getD 0 = (m.lookup k').getD 0 + if k' = k then v else 0 := by
  unfold addAt
  by_cases hk : k' = k
  · subst hk
    simp
  · simp [hk, AList.lookup_insert_ne hk]

section Append

variable {δ : Type*}

/-- `m[k] = append(m[k], x)`: a key the map lacks reads as the empty list. -/
def appendAt (m : AList (fun _ : α => List δ)) (k : α) (x : δ) : AList (fun _ : α => List δ) :=
  m.insert k ((m.lookup k).getD [] ++ [x])

/-- Filling a map of lists from a list, skipping some elements, leaves under
each key the elements kept with that key, in their order. -/
theorem lookup_foldl_appendAt (key : δ → α) (skip : δ → Prop) [DecidablePred skip] (l : List δ)
    (m : AList (fun _ : α => List δ)) (k : α) :
    ((l.foldl (fun m x => if skip x then m else appendAt m (key x) x) m).lookup k).getD [] =
      (m.lookup k).getD [] ++ l.filter fun x => !decide (skip x) && key x == k := by
  induction l generalizing m with
  | nil => simp
  | cons x l ih =>
    rw [List.foldl_cons, ih, List.filter_cons]
    by_cases hx : skip x
    · simp [hx]
    · by_cases hk : key x = k
      · subst hk
        simp [hx, appendAt]
      · simp [hx, hk, appendAt, AList.lookup_insert_ne (Ne.symm hk)]

end Append

/-- Each item `c` is claimed, through `P`, by the value of at most one key of
`s`. -/
def Exclusive (P : β → γ → Bool) (s : AList (fun _ : α => β)) : Prop :=
  ∀ ⦃x y : α⦄ ⦃vx vy : β⦄ ⦃c : γ⦄, s.lookup x = some vx → s.lookup y = some vy →
    P vx c = true → P vy c = true → x = y

variable {P : β → γ → Bool} {s : AList (fun _ : α => β)}

theorem exclusive_empty : Exclusive P (∅ : AList (fun _ : α => β)) := by
  intro x _ _ _ _ hx
  rw [AList.lookup_empty] at hx
  cases hx

/-- Writing `b` under `x` keeps the claims exclusive when every item `b`
claims is claimed by no key but `x`. -/
theorem Exclusive.insert (h : Exclusive P s) {x : α} {b : β}
    (hb : ∀ c, P b c = true → ∀ y v, s.lookup y = some v → P v c = true → y = x) :
    Exclusive P (s.insert x b) := by
  intro y z vy vz c hy hz hpy hpz
  rw [lookup_insert_eq_some] at hy hz
  rcases hy with ⟨rfl, rfl⟩ | ⟨-, hy⟩ <;> rcases hz with ⟨rfl, rfl⟩ | ⟨-, hz⟩
  · rfl
  · exact (hb c hpy z vz hz hpz).symm
  · exact hb c hpz y vy hy hpy
  · exact h hy hz hpy hpz

/-- `b` claims what `v₀` claims and, besides, only items no key of `s`
claims. -/
def ClaimsFree (P : β → γ → Bool) (s : AList (fun _ : α => β)) (v₀ b : β) : Prop :=
  ∀ c, P b c = true → P v₀ c = true ∨ ∀ y v, s.lookup y = some v → P v c = false

theorem claimsFree_of_imp {v₀ b : β} (h : ∀ c, P b c = true → P v₀ c = true) :
    ClaimsFree P s v₀ b :=
  fun c hc => .inl (h c hc)

/-- The update of the value `v₀` under `x` to `b` keeps the claims exclusive
when `b` claims, besides what `v₀` claimed, only items no key claims. -/
theorem Exclusive.insert_of_lookup (h : Exclusive P s) {x : α} {v₀ b : β}
    (hx : s.lookup x = some v₀) (hb : ClaimsFree P s v₀ b) :
    Exclusive P (s.insert x b) := by
  refine h.insert fun c hc y v hy hpv => ?_
  rcases hb c hc with hold | hfree
  · exact h hy hx hpv hold
  · rw [hfree y v hy] at hpv
    cases hpv

/-- Two entries of an exclusive map that claim one item are the same entry. -/
theorem Exclusive.eq_of_mem_entries (h : Exclusive P s) {a b : Σ _ : α, β} {c : γ}
    (ha : a ∈ s.entries) (hb : b ∈ s.entries) (hpa : P a.2 c = true) (hpb : P b.2 c = true) :
    a = b := by
  obtain ⟨x, vx⟩ := a
  obtain ⟨y, vy⟩ := b
  have hlx : s.lookup x = some vx := AList.mem_lookup_iff.mpr ha
  have hly : s.lookup y = some vy := AList.mem_lookup_iff.mpr hb
  obtain rfl : x = y := h hlx hly hpa hpb
  obtain rfl : vx = vy := Option.some_inj.mp (hlx.symm.trans hly)
  rfl

/-- Over an exclusive map, a loop that returns the first entry claiming `c`
returns the same entry in every iteration order. -/
theorem Exclusive.find?_perm (h : Exclusive P s) (c : γ) {order : List (Σ _ : α, β)}
    (hp : order.Perm s.entries) :
    order.find? (fun e => P e.2 c) = s.entries.find? (fun e => P e.2 c) :=
  find?_eq_of_perm hp fun _ ha _ hb hpa hpb => h.eq_of_mem_entries ha hb hpa hpb

/-! ## Counting the values that pass a test -/

section Count

variable (p : β → Bool)

/-- The number of keys whose value passes `p`, as a loop over the map counts
them. -/
def countValues (s : AList (fun _ : α => β)) : Nat := s.entries.countP fun e => p e.2

omit [DecidableEq α] in
@[simp] theorem countValues_empty : countValues p (∅ : AList (fun _ : α => β)) = 0 := rfl

theorem countValues_erase_le (s : AList (fun _ : α => β)) (k : α) :
    countValues p (s.erase k) ≤ countValues p s :=
  (List.kerase_sublist k s.entries).countP_le

/-- A write counts the new value in place of the key's old one. -/
theorem countValues_insert (s : AList (fun _ : α => β)) (k : α) (v : β) :
    countValues p (s.insert k v) = countValues p (s.erase k) + if p v then 1 else 0 := by
  simp only [countValues, AList.entries_insert, List.countP_cons]
  rfl

/-- The old value of a key counts in the map and not in the map without the
key. -/
theorem countValues_eq_erase_add {s : AList (fun _ : α => β)} {k : α} {v₀ : β} (h : s.lookup k = some v₀) :
    countValues p s = countValues p (s.erase k) + if p v₀ then 1 else 0 := by
  have hk : k ∈ s.entries.keys := AList.lookup_isSome.mp (by rw [h]; rfl)
  obtain ⟨b, l₁, l₂, -, hl, hker⟩ := List.exists_of_kerase hk
  -- the entry `kerase` takes out is the one `lookup` found
  obtain rfl : b = v₀ := by
    have hmem : (⟨k, b⟩ : Σ _ : α, β) ∈ s.entries := by rw [hl]; simp
    exact Option.some_inj.mp ((AList.mem_lookup_iff.mpr hmem).symm.trans h)
  have herase : (s.erase k).entries = l₁ ++ l₂ := hker
  simp only [countValues, herase, hl, List.countP_append, List.countP_cons]
  omega

theorem countValues_insert_le (s : AList (fun _ : α => β)) (k : α) (v : β) :
    countValues p (s.insert k v) ≤ countValues p s + if p v then 1 else 0 := by
  rw [countValues_insert]
  exact Nat.add_le_add_right (countValues_erase_le p s k) _

/-- Writing a value that passes `p` as the old one did leaves the count. -/
theorem countValues_insert_of_lookup {s : AList (fun _ : α => β)} {k : α} {v₀ : β} (h : s.lookup k = some v₀)
    (v : β) (hv : p v = p v₀) : countValues p (s.insert k v) = countValues p s := by
  rw [countValues_insert, countValues_eq_erase_add p h, hv]

end Count

end PlacementDriver.Verified.GoMap
