import Mathlib

/-!
# A map with a dense slice of its keys

To pick a key uniformly at random, a map can keep beside it a slice of its
keys and record in each entry that entry's index in the slice. A new key is
appended to the slice; a removed key's slot is filled with the last key,
whose recorded index changes accordingly, and the slice is cut by one
("swap remove").

`Indexed pos ids` is the invariant that ties the recorded indexes `pos` to
the slice `ids`: the key at index `i` has `i` recorded, and a key with `i`
recorded is at index `i`. As one equivalence it needs no separate statement
that `ids` lists each key once or that its keys are those of the map; both
follow (`Indexed.nodup`, `Indexed.mem_iff`).

Such a map often keeps running totals of its values as well. The second half
of the module is about sums over an association list (`AList`), the model of a
hash map used here: how `insert` and `erase` change a total.

## Main results

* `Indexed.append`: appending a fresh key, recorded at the old length.
* `Indexed.swapRemove`: swap removal of a key.
* `total_insert`, `total_erase`: a total after replacing or erasing a value.
-/

namespace PlacementDriver.Verified.DenseIndex

/-! ## Recorded indexes and the slice of keys -/

section Indexed

variable {κ : Type*}

/-- The recorded indexes `pos` and the slice `ids` index each other. -/
def Indexed (pos : κ → Option Nat) (ids : List κ) : Prop :=
  ∀ k i, pos k = some i ↔ ids[i]? = some k

variable {pos : κ → Option Nat} {ids : List κ}

theorem indexed_nil : Indexed (fun _ => none) ([] : List κ) := by
  intro k i
  simp

theorem Indexed.lt_length (h : Indexed pos ids) {k : κ} {i : Nat} (hk : pos k = some i) :
    i < ids.length :=
  (List.getElem?_eq_some_iff.mp ((h k i).mp hk)).1

/-- A key is listed once. -/
theorem Indexed.nodup (h : Indexed pos ids) : ids.Nodup := by
  rw [List.nodup_iff_getElem?_ne_getElem?]
  intro i j hij hj heq
  -- the key at both indexes has both recorded
  obtain ⟨k, hk⟩ : ∃ k, ids[j]? = some k := ⟨ids[j], List.getElem?_eq_getElem hj⟩
  have hi : pos k = some i := (h k i).mpr (heq.trans hk)
  have hj' : pos k = some j := (h k j).mpr hk
  rw [hi] at hj'
  exact absurd (Option.some.inj hj') (ne_of_lt hij)

/-- The slice lists exactly the keys with an index recorded. -/
theorem Indexed.mem_iff (h : Indexed pos ids) {k : κ} : k ∈ ids ↔ (pos k).isSome := by
  rw [List.mem_iff_getElem?, Option.isSome_iff_exists]
  exact exists_congr (fun i => (h k i).symm)

/-- What the slice holds after the last key is written into slot `i` and the
slice is cut by one. -/
theorem getElem?_swapRemove {i j : Nat} {last : κ} (hi : i < ids.length) :
    ((ids.set i last).take (ids.length - 1))[j]? =
      if j < ids.length - 1 then (if i = j then some last else ids[j]?) else none := by
  simp only [List.getElem?_take, List.getElem?_set, hi, if_true]

variable [DecidableEq κ]

/-- Appending a key with no index recorded, and recording the old length. -/
theorem Indexed.append (h : Indexed pos ids) {k : κ} (hk : pos k = none) :
    Indexed (Function.update pos k (some ids.length)) (ids ++ [k]) := by
  intro k' i
  rw [List.getElem?_append]
  by_cases hk' : k' = k
  · subst hk'
    rw [Function.update_self]
    split_ifs with hi
    · -- below the old length the slice holds other keys
      have hne : ids[i]? ≠ some k' := fun hi' => by rw [(h k' i).mpr hi'] at hk; cases hk
      exact ⟨fun he => absurd hi (by rw [← Option.some.inj he]; exact lt_irrefl _),
        fun he => absurd he hne⟩
    · rw [List.getElem?_singleton]
      constructor
      · intro he
        rw [← Option.some.inj he, Nat.sub_self]
        rfl
      · intro he
        have hi0 : i - ids.length = 0 := by
          by_contra hne
          rw [if_neg hne] at he
          cases he
        congr 1
        omega
  · rw [Function.update_of_ne hk']
    split_ifs with hi
    · exact h k' i
    · rw [List.getElem?_singleton]
      constructor
      · intro hp
        exact absurd (h.lt_length hp) hi
      · intro he
        split_ifs at he with h0
        exact absurd (Option.some.inj he).symm hk'

/-- Swap removal of the key `k` recorded at `i`: the last key `last` moves to
slot `i` and is recorded there, `k` loses its index, and the slice is cut by
one. -/
theorem Indexed.swapRemove (h : Indexed pos ids) {k last : κ} {i : Nat} (hk : pos k = some i)
    (hlast : ids[ids.length - 1]? = some last) :
    Indexed (Function.update (Function.update pos last (some i)) k none)
      ((ids.set i last).take (ids.length - 1)) := by
  have hi : i < ids.length := h.lt_length hk
  have hki : ids[i]? = some k := (h k i).mp hk
  have hposlast : pos last = some (ids.length - 1) := (h last _).mpr hlast
  intro k' j
  rw [getElem?_swapRemove hi]
  by_cases hkk : k' = k
  · -- `k` is no longer listed: the slot it held now holds `last`
    rw [hkk, Function.update_self]
    constructor
    · intro he
      cases he
    · intro he
      by_cases hj : j < ids.length - 1
      · rw [if_pos hj] at he
        by_cases hij : i = j
        · rw [if_pos hij] at he
          rw [Option.some.inj he, hk] at hposlast
          have : i = ids.length - 1 := Option.some.inj hposlast
          omega
        · rw [if_neg hij] at he
          have hkj : pos k = some j := (h k j).mpr he
          rw [hk] at hkj
          exact absurd (Option.some.inj hkj) hij
      · rw [if_neg hj] at he
        cases he
  · rw [Function.update_of_ne hkk]
    by_cases hkl : k' = last
    · -- `last` is recorded at `i`, the one slot that holds it now
      rw [hkl, Function.update_self]
      have hil : i ≠ ids.length - 1 := by
        intro hil
        rw [hil, hlast] at hki
        exact hkk (hkl.trans (Option.some.inj hki))
      constructor
      · intro he
        rw [← Option.some.inj he, if_pos (by omega), if_pos rfl]
      · intro he
        by_cases hj : j < ids.length - 1
        · rw [if_pos hj] at he
          by_cases hij : i = j
          · rw [hij]
          · rw [if_neg hij] at he
            have hlj : pos last = some j := (h last j).mpr he
            rw [hposlast] at hlj
            have : ids.length - 1 = j := Option.some.inj hlj
            omega
        · rw [if_neg hj] at he
          cases he
    · -- every other key keeps its slot, which is neither `i` nor the last one
      rw [Function.update_of_ne hkl]
      constructor
      · intro hp
        have hj : ids[j]? = some k' := (h k' j).mp hp
        have hji : i ≠ j := by
          intro hij
          rw [← hij, hki] at hj
          exact hkk (Option.some.inj hj).symm
        have hjl : j ≠ ids.length - 1 := by
          intro hjl
          rw [hjl, hlast] at hj
          exact hkl (Option.some.inj hj).symm
        have hjlt : j < ids.length := h.lt_length hp
        rw [if_pos (by omega), if_neg hji, hj]
      · intro he
        by_cases hj : j < ids.length - 1
        · rw [if_pos hj] at he
          by_cases hij : i = j
          · rw [if_pos hij] at he
            exact absurd (Option.some.inj he).symm hkl
          · rw [if_neg hij] at he
            exact (h k' j).mpr he
        · rw [if_neg hj] at he
          cases he

end Indexed

/-! ## Totals over an association list -/

section Totals

variable {κ β M : Type*} [AddCommGroup M]

/-- The total of `f` over the values of `s`. -/
def total (f : β → M) (s : AList (fun _ : κ => β)) : M := (s.entries.map (fun e => f e.2)).sum

theorem total_empty (f : β → M) : total f (∅ : AList (fun _ : κ => β)) = 0 := rfl

variable [DecidableEq κ]

/-- Erasing a key from a list of entries subtracts its value from the total. -/
theorem sum_map_kerase (f : β → M) (k : κ) (l : List (Sigma (fun _ : κ => β))) :
    ((l.kerase k).map (fun e => f e.2)).sum =
      (l.map (fun e => f e.2)).sum - ((l.dlookup k).map f).getD 0 := by
  induction l with
  | nil => simp
  | cons e l ih =>
      obtain ⟨k', b⟩ := e
      by_cases hk : k = k'
      · subst hk
        simp [List.kerase_cons_eq, List.dlookup_cons_eq]
      · rw [List.kerase_cons_ne hk, List.dlookup_cons_ne _ _ hk]
        simp only [List.map_cons, List.sum_cons, ih]
        abel

theorem total_erase (f : β → M) (k : κ) (s : AList (fun _ : κ => β)) :
    total f (s.erase k) = total f s - ((s.lookup k).map f).getD 0 :=
  sum_map_kerase f k s.entries

theorem total_insert (f : β → M) (k : κ) (b : β) (s : AList (fun _ : κ => β)) :
    total f (s.insert k b) = total f s - ((s.lookup k).map f).getD 0 + f b := by
  simp only [total, AList.entries_insert, List.map_cons, List.sum_cons]
  rw [sum_map_kerase]
  unfold AList.lookup
  abel

end Totals

end PlacementDriver.Verified.DenseIndex
