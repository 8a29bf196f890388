import Mathlib

/-!
# google/btree, as an ordered set

`vendor/github.com/google/btree` stores items under a strict weak order
`Less` and "can only hold one of either `a` or `b`" when neither is less than
the other. Its node layout, splits and copy-on-write bookkeeping are
invisible through the API that `regionTree` uses, which is specified in the
package's own doc comments:

* `ReplaceOrInsert(item)` adds `item`, removing an equal item if present;
* `Delete(item)` removes the item equal to `item`, if any;
* `AscendGreaterOrEqual(pivot, it)` calls `it` on the items in `[pivot, last]`
  in ascending order until `it` returns false;
* `DescendLessOrEqual(pivot, it)` calls `it` on the items in `[pivot, first]`
  in descending order until `it` returns false;
* `Len()` counts the items.

We model a tree by the ascending list of its items and `Less` by a key into a
linear order. An iterator closure that updates captured variables becomes a
state-passing step `σ → α → σ × Bool`, whose `Bool` is the closure's return
value. The ordering invariant `Sorted` is proved, not assumed, by the lemmas
below.
-/

namespace PlacementDriver.Vendor

/-- A google/btree, seen through its API: its items in ascending order. -/
structure BTree (α : Type*) where
  items : List α
deriving DecidableEq, Repr

namespace BTree

variable {α κ σ : Type*} [LinearOrder κ] (key : α → κ)

/-- `btree.New(degree)`: the degree only shapes the nodes. -/
def new : BTree α := ⟨[]⟩

/-- Insertion into an ascending list, replacing an item of equal key. -/
def insertItem (x : α) : List α → List α
  | [] => [x]
  | a :: t =>
      if key x < key a then x :: a :: t
      else if key a < key x then a :: insertItem x t
      else x :: t

/-- `ReplaceOrInsert(item)`. -/
def replaceOrInsert (t : BTree α) (x : α) : BTree α := ⟨insertItem key x t.items⟩

/-- `Delete(item)`: drop the item whose key equals `item`'s. -/
def delete (t : BTree α) (x : α) : BTree α := ⟨t.items.filter (fun a => key a ≠ key x)⟩

/-- Run an iterator over a list until it returns false. -/
def iterate (f : σ → α → σ × Bool) : List α → σ → σ
  | [], s => s
  | a :: t, s => if (f s a).2 then iterate f t (f s a).1 else (f s a).1

/-- `AscendGreaterOrEqual(pivot, iterator)`. -/
def ascendGreaterOrEqual (t : BTree α) (pivot : α) (f : σ → α → σ × Bool) (s : σ) : σ :=
  iterate f (t.items.filter (fun a => ¬ key a < key pivot)) s

/-- `DescendLessOrEqual(pivot, iterator)`. -/
def descendLessOrEqual (t : BTree α) (pivot : α) (f : σ → α → σ × Bool) (s : σ) : σ :=
  iterate f (t.items.filter (fun a => ¬ key pivot < key a)).reverse s

/-- `Len()`. -/
def len (t : BTree α) : Nat := t.items.length

/-- The ordering invariant: strictly ascending keys. -/
def Sorted (t : BTree α) : Prop := t.items.Pairwise (fun a b => key a < key b)

variable {key}

/-! ## Iterators used by `regionTree` -/

/-- An iterator that records its first item and stops sees the head. -/
theorem iterate_first (l : List α) :
    iterate (fun (_ : Option α) a => (some a, false)) l none = l.head? := by
  cases l <;> rfl

/-- An iterator that appends items until `stop` holds collects the longest
prefix on which `stop` fails. -/
theorem iterate_collect (stop : α → Bool) (l acc : List α) :
    iterate (fun acc a => if stop a then (acc, false) else (acc ++ [a], true)) l acc =
      acc ++ l.takeWhile (fun a => !stop a) := by
  induction l generalizing acc with
  | nil => simp [iterate]
  | cons a t ih =>
      by_cases ha : stop a = true
      · simp [iterate, ha]
      · simp [iterate, ha, ih]

/-- An iterator that folds `g` over the items until `stop` holds folds it
over the longest prefix on which `stop` fails. -/
theorem iterate_fold (stop : α → Bool) (g : σ → α → σ) (l : List α) (s : σ) :
    iterate (fun s a => if stop a then (s, false) else (g s a, true)) l s =
      (l.takeWhile (fun a => !stop a)).foldl g s := by
  induction l generalizing s with
  | nil => rfl
  | cons a t ih =>
      by_cases ha : stop a = true
      · simp [iterate, ha]
      · simp [iterate, ha, ih]

/-- An iterator that skips items satisfying `Q` and records the first other
item finds the head of what `dropWhile Q` leaves. -/
theorem iterate_skip (Q : α → Prop) [DecidablePred Q] (l : List α) :
    iterate (fun (r : Option α) a => if Q a then (r, true) else (some a, false)) l none =
      (l.dropWhile (fun a => decide (Q a))).head? := by
  induction l with
  | nil => rfl
  | cons a t ih =>
      by_cases ha : Q a
      · simp [iterate, ha, ih]
      · simp [iterate, ha]

/-- An iterator that appends `g a` for each item and goes on while fewer than
`limit` are collected collects the first `limit - acc.length` items. -/
theorem iterate_take {β : Type*} (g : α → β) (limit : Nat) (l : List α) (acc : List β)
    (hacc : acc.length < limit) :
    iterate (fun acc a => (acc ++ [g a], decide ((acc ++ [g a]).length < limit))) l acc =
      acc ++ (l.take (limit - acc.length)).map g := by
  induction l generalizing acc with
  | nil => simp [iterate]
  | cons a t ih =>
      have hroom : limit - acc.length = limit - (acc.length + 1) + 1 := by omega
      by_cases hmore : acc.length + 1 < limit
      · have := ih (acc ++ [g a]) (by simpa using hmore)
        simp only [iterate, List.length_append, List.length_singleton, hmore, decide_true,
          if_true] at this ⊢
        rw [this, hroom, List.take_succ_cons, List.map_cons, List.append_assoc, List.singleton_append]
      · have hlast : limit - acc.length = 1 := by omega
        simp [iterate, hmore, hlast]

/-! ## `ReplaceOrInsert` on a sorted tree -/

section Insert

/-- What `insertItem` keeps: the new item and every item of another key. -/
theorem mem_insertItem {x b : α} {l : List α}
    (hs : l.Pairwise (fun a b => key a < key b)) :
    b ∈ insertItem key x l ↔ b = x ∨ (b ∈ l ∧ key b ≠ key x) := by
  induction l with
  | nil => simp [insertItem]
  | cons a t ih =>
      obtain ⟨hhead, htail⟩ := List.pairwise_cons.mp hs
      unfold insertItem
      split_ifs with hlt hgt
      · -- `x` goes first: every item of `a :: t` has a larger key
        have hne : ∀ c ∈ a :: t, key c ≠ key x := by
          intro c hc
          rcases List.mem_cons.mp hc with rfl | hc
          · exact ne_of_gt hlt
          · exact ne_of_gt (lt_trans hlt (hhead c hc))
        simp only [List.mem_cons] at hne ⊢
        constructor
        · rintro (h | h | h)
          · exact .inl h
          · exact .inr ⟨.inl h, by rw [h]; exact hne a (.inl rfl)⟩
          · exact .inr ⟨.inr h, hne b (.inr h)⟩
        · rintro (h | ⟨h | h, _⟩)
          · exact .inl h
          · exact .inr (.inl h)
          · exact .inr (.inr h)
      · rw [List.mem_cons, ih htail]
        constructor
        · rintro (rfl | h | h)
          · exact .inr ⟨List.mem_cons_self, ne_of_lt hgt⟩
          · exact .inl h
          · exact .inr ⟨List.mem_cons_of_mem _ h.1, h.2⟩
        · rintro (h | ⟨h, hne⟩)
          · exact .inr (.inl h)
          · rcases List.mem_cons.mp h with rfl | h
            · exact .inl rfl
            · exact .inr (.inr ⟨h, hne⟩)
      · -- equal keys: `x` replaces `a`, and the tail has larger keys
        have heq : key a = key x := le_antisymm (not_lt.mp hlt) (not_lt.mp hgt)
        rw [List.mem_cons]
        constructor
        · rintro (h | h)
          · exact .inl h
          · exact .inr ⟨List.mem_cons_of_mem _ h, by
              rw [← heq]; exact ne_of_gt (hhead b h)⟩
        · rintro (h | ⟨h, hne⟩)
          · exact .inl h
          · rcases List.mem_cons.mp h with rfl | h
            · exact absurd heq hne
            · exact .inr h

/-- `insertItem` keeps any relation that the new item has with the smaller
keys on its left and with the larger keys on its right. -/
theorem pairwise_insertItem {R : α → α → Prop} {x : α} {l : List α}
    (hs : l.Pairwise (fun a b => key a < key b)) (hR : l.Pairwise R)
    (hleft : ∀ a ∈ l, key a < key x → R a x) (hright : ∀ a ∈ l, key x < key a → R x a) :
    (insertItem key x l).Pairwise R := by
  induction l with
  | nil => simp [insertItem]
  | cons a t ih =>
      obtain ⟨hhead, htail⟩ := List.pairwise_cons.mp hs
      obtain ⟨hRhead, hRtail⟩ := List.pairwise_cons.mp hR
      unfold insertItem
      split_ifs with hlt hgt
      · refine List.Pairwise.cons (fun c hc => ?_) hR
        rcases List.mem_cons.mp hc with rfl | hc
        · exact hright c List.mem_cons_self hlt
        · exact hright c (List.mem_cons_of_mem _ hc) (lt_trans hlt (hhead c hc))
      · refine List.Pairwise.cons (fun c hc => ?_)
          (ih htail hRtail (fun c hc => hleft c (List.mem_cons_of_mem _ hc))
            (fun c hc => hright c (List.mem_cons_of_mem _ hc)))
        rcases (mem_insertItem htail).mp hc with rfl | ⟨hc, _⟩
        · exact hleft a List.mem_cons_self hgt
        · exact hRhead c hc
      · have heq : key a = key x := le_antisymm (not_lt.mp hlt) (not_lt.mp hgt)
        refine List.Pairwise.cons (fun c hc => ?_) hRtail
        exact hright c (List.mem_cons_of_mem _ hc) (heq ▸ hhead c hc)

/-- `ReplaceOrInsert` keeps the tree sorted. -/
theorem sorted_replaceOrInsert {t : BTree α} (hs : t.Sorted key) (x : α) :
    (t.replaceOrInsert key x).Sorted key :=
  pairwise_insertItem hs hs (fun _ _ h => h) (fun _ _ h => h)

end Insert

/-! ## `Delete` -/

theorem mem_delete {t : BTree α} {x b : α} :
    b ∈ (t.delete key x).items ↔ b ∈ t.items ∧ key b ≠ key x := by
  simp [delete]

theorem sorted_delete {t : BTree α} (hs : t.Sorted key) (x : α) :
    (t.delete key x).Sorted key :=
  hs.filter _

/-- Deleting a list of items one by one keeps what none of them matches. -/
theorem foldl_delete (t : BTree α) (xs : List α) :
    (xs.foldl (delete key) t).items = t.items.filter (fun a => ∀ x ∈ xs, key a ≠ key x) := by
  induction xs generalizing t with
  | nil => simp
  | cons x xs ih =>
      rw [List.foldl_cons, ih]
      simp only [delete, List.filter_filter, List.mem_cons, forall_eq_or_imp]
      refine List.filter_congr (fun a _ => ?_)
      rw [Bool.and_comm]
      simp

end BTree

end PlacementDriver.Vendor
