import Mathlib

/-!
# `container/list`, as its documentation specifies it

Go's `container/list` is a doubly linked list whose elements are pointers:
`PushFront(v)` allocates a new `*Element` holding `v` and puts it at the
front; `MoveToFront(e)` and `Remove(e)` act on `e` when it is an element of
the list and do nothing otherwise; `Front` and `Back` return the first and
last element or nil; `Len` counts the elements. An element keeps its `Value`
after it leaves the list, and a caller may write to what the `Value` points
to.

We name an element by the index at which it was allocated, keep the values of
all elements ever allocated in `heap`, and keep the elements in the list,
front to back, in `order`. The pointer structure (`next`, `prev`, the
sentinel `root`) is not observable through this API and is not modelled.
`WF` is what every list built by the API satisfies; `entries`, the elements
with their values front to back, is what the operations are specified by.

## Main results

* `entries_pushFront`, `entries_moveToFront`, `entries_remove`,
  `entries_modifyValue`: each operation on `entries`.
* `back_eq`, `len_eq`: `Back` and `Len` read off `entries`.
-/

namespace PlacementDriver.Go

/-- A `list.List`. -/
structure ContainerList (α : Type) where
  /-- The elements in the list, front to back. -/
  order : List Nat
  /-- The `Value` of every element ever allocated, by address. -/
  heap : List α
deriving DecidableEq, Repr

namespace ContainerList

variable {α : Type}

/-- `list.New()`. -/
def new : ContainerList α := ⟨[], []⟩

/-- `l.Len()`. -/
def len (l : ContainerList α) : Nat := l.order.length

/-- `l.Front()`; nil is `none`. -/
def front (l : ContainerList α) : Option Nat := l.order.head?

/-- `l.Back()`. -/
def back (l : ContainerList α) : Option Nat := l.order.getLast?

/-- `e.Value`. -/
def value (l : ContainerList α) (e : Nat) : Option α := l.heap[e]?

/-- `l.PushFront(v)`: a new element holding `v`, at the front; returns it. -/
def pushFront (l : ContainerList α) (v : α) : ContainerList α × Nat :=
  (⟨l.heap.length :: l.order, l.heap ++ [v]⟩, l.heap.length)

/-- `l.MoveToFront(e)`. -/
def moveToFront (l : ContainerList α) (e : Nat) : ContainerList α :=
  if e ∈ l.order then { l with order := e :: l.order.erase e } else l

/-- `l.Remove(e)`. -/
def remove (l : ContainerList α) (e : Nat) : ContainerList α :=
  { l with order := l.order.erase e }

/-- A write through the pointer in `e.Value`. -/
def modifyValue (l : ContainerList α) (e : Nat) (f : α → α) : ContainerList α :=
  { l with heap := l.heap.modify e f }

/-- The elements of the list with their values, front to back. -/
def entries (l : ContainerList α) : List (Nat × α) :=
  l.order.filterMap (fun e => l.heap[e]?.map (e, ·))

/-- Every element of the list is allocated and listed once. -/
structure WF (l : ContainerList α) : Prop where
  nodup : l.order.Nodup
  allocated : ∀ e ∈ l.order, e < l.heap.length

variable {l : ContainerList α}

theorem wf_new : (new : ContainerList α).WF := ⟨List.nodup_nil, fun _ h => absurd h List.not_mem_nil⟩

@[simp] theorem entries_new : (new : ContainerList α).entries = [] := rfl

theorem mem_entries {e : Nat} {v : α} : (e, v) ∈ l.entries ↔ e ∈ l.order ∧ l.value e = some v := by
  simp only [entries, List.mem_filterMap, Option.map_eq_some_iff, Prod.mk.injEq, value]
  constructor
  · rintro ⟨e', he', v', hv', rfl, rfl⟩
    exact ⟨he', hv'⟩
  · rintro ⟨he, hv⟩
    exact ⟨e, he, v, hv, rfl, rfl⟩

/-- An element has one value. -/
theorem eq_of_mem_entries {e : Nat} {v v' : α} (hv : (e, v) ∈ l.entries)
    (hv' : (e, v') ∈ l.entries) : v = v' := by
  have h1 := (mem_entries.mp hv).2
  rw [(mem_entries.mp hv').2] at h1
  exact (Option.some.inj h1).symm

/-- No allocated element is dropped from `entries`. -/
theorem map_fst_filterMap (heap : List α) (order : List Nat)
    (halloc : ∀ e ∈ order, e < heap.length) :
    (order.filterMap (fun e => heap[e]?.map (e, ·))).map Prod.fst = order := by
  induction order with
  | nil => rfl
  | cons e order ih =>
      have he : e < heap.length := halloc e List.mem_cons_self
      rw [List.filterMap_cons, List.getElem?_eq_getElem he, Option.map_some, List.map_cons,
        ih (fun x hx => halloc x (List.mem_cons_of_mem _ hx))]

/-- Under `WF` the addresses of `entries` are `order`. -/
theorem WF.entries_map_fst (h : l.WF) : l.entries.map Prod.fst = l.order :=
  map_fst_filterMap l.heap l.order h.allocated

theorem WF.len_eq (h : l.WF) : l.len = l.entries.length := by
  rw [len, ← h.entries_map_fst, List.length_map]

theorem WF.back_eq (h : l.WF) : l.back = l.entries.getLast?.map Prod.fst := by
  rw [back, ← h.entries_map_fst, List.getLast?_map]

theorem WF.nodup_entries (h : l.WF) : (l.entries.map Prod.fst).Nodup := by
  rw [h.entries_map_fst]
  exact h.nodup

/-- Dropping an address from `order` drops its entry. -/
theorem filterMap_filter_ne (heap : List α) (order : List Nat) (e : Nat) :
    (order.filter (· != e)).filterMap (fun e' => heap[e']?.map (e', ·)) =
      (order.filterMap (fun e' => heap[e']?.map (e', ·))).filter (fun x => x.1 ≠ e) := by
  induction order with
  | nil => rfl
  | cons e' order ih =>
      by_cases he : e' = e
      · subst he
        cases hv : heap[e']? <;> simp [hv, ih]
      · cases hv : heap[e']? <;> simp [hv, ih, he]

/-- Dropping the back element's entry drops the last entry. -/
theorem WF.filter_back (h : l.WF) {b : Nat} (hb : l.back = some b) :
    l.entries.filter (fun x => x.1 ≠ b) = l.entries.dropLast := by
  rw [h.back_eq, Option.map_eq_some_iff] at hb
  obtain ⟨x, hx, rfl⟩ := hb
  have hsplit : l.entries = l.entries.dropLast ++ [x] := (List.dropLast_append_getLast? x hx).symm
  have hnd := h.nodup_entries
  rw [hsplit, List.map_append, List.nodup_append] at hnd
  rw [hsplit, List.filter_append, List.dropLast_concat]
  -- no entry before the last has its address
  have hdrop : l.entries.dropLast.filter (fun y => y.1 ≠ x.1) = l.entries.dropLast := by
    rw [List.filter_eq_self]
    intro y hy
    have hne := hnd.2.2 y.1 (List.mem_map_of_mem hy) x.1 (by simp)
    simpa using hne
  rw [hdrop]
  simp

/-! ## `PushFront` -/

theorem wf_pushFront (h : l.WF) (v : α) : (l.pushFront v).1.WF := by
  refine ⟨List.nodup_cons.mpr ⟨fun hmem => absurd (h.allocated _ hmem) (lt_irrefl _), h.nodup⟩, ?_⟩
  intro e he
  simp only [pushFront, List.length_append, List.length_singleton]
  rcases List.mem_cons.mp he with rfl | he
  · omega
  · have := h.allocated e he
    omega

theorem entries_pushFront (h : l.WF) (v : α) :
    (l.pushFront v).1.entries = (l.heap.length, v) :: l.entries := by
  simp only [pushFront, entries, List.filterMap_cons, List.getElem?_concat_length, Option.map_some]
  congr 1
  refine List.filterMap_congr (fun e he => ?_)
  rw [List.getElem?_append_left (h.allocated e he)]

/-- The element `PushFront` returns is not in the list before. -/
theorem pushFront_fresh (h : l.WF) : l.heap.length ∉ l.order :=
  fun hmem => absurd (h.allocated _ hmem) (lt_irrefl _)

/-! ## `MoveToFront`, `Remove` and writes through `Value` -/

theorem wf_moveToFront (h : l.WF) (e : Nat) : (l.moveToFront e).WF := by
  unfold moveToFront
  split_ifs with he
  · refine ⟨List.nodup_cons.mpr ⟨h.nodup.not_mem_erase, h.nodup.erase e⟩, fun e' he' => ?_⟩
    rcases List.mem_cons.mp he' with rfl | he'
    · exact h.allocated _ he
    · exact h.allocated e' (List.mem_of_mem_erase he')
  · exact h

theorem entries_moveToFront (h : l.WF) {e : Nat} {v : α} (he : (e, v) ∈ l.entries) :
    (l.moveToFront e).entries = (e, v) :: l.entries.filter (fun x => x.1 ≠ e) := by
  obtain ⟨hmem, hv⟩ := mem_entries.mp he
  rw [moveToFront, if_pos hmem]
  simp only [entries, List.filterMap_cons]
  rw [show l.heap[e]? = some v from hv, Option.map_some, h.nodup.erase_eq_filter,
    filterMap_filter_ne]

theorem len_moveToFront (e : Nat) : (l.moveToFront e).len = l.len := by
  unfold moveToFront len
  split_ifs with he
  · rw [List.length_cons, List.length_erase_of_mem he]
    have : 0 < l.order.length := List.length_pos_of_mem he
    omega
  · rfl

theorem value_moveToFront (e e' : Nat) : (l.moveToFront e).value e' = l.value e' := by
  unfold moveToFront
  split_ifs <;> rfl

/-- `MoveToFront` reorders the list and changes no entry. -/
theorem mem_entries_moveToFront {e : Nat} {x : Nat × α} :
    x ∈ (l.moveToFront e).entries ↔ x ∈ l.entries := by
  obtain ⟨e', v⟩ := x
  rw [mem_entries, mem_entries, value_moveToFront]
  unfold moveToFront
  split_ifs with he
  · simp only [List.mem_cons]
    by_cases he' : e' = e
    · subst he'
      simp [he]
    · simp [he', List.mem_erase_of_ne he']
  · rfl

theorem wf_remove (h : l.WF) (e : Nat) : (l.remove e).WF :=
  ⟨h.nodup.erase e, fun e' he' => h.allocated e' (List.mem_of_mem_erase he')⟩

theorem entries_remove (h : l.WF) (e : Nat) :
    (l.remove e).entries = l.entries.filter (fun x => x.1 ≠ e) := by
  simp only [remove, entries]
  rw [h.nodup.erase_eq_filter, filterMap_filter_ne]

theorem len_remove_le (e : Nat) : (l.remove e).len ≤ l.len := List.length_erase_le

theorem value_remove (e e' : Nat) : (l.remove e).value e' = l.value e' := rfl

theorem wf_modifyValue (h : l.WF) (e : Nat) (f : α → α) : (l.modifyValue e f).WF :=
  ⟨h.nodup, fun e' he' => by simpa [modifyValue] using h.allocated e' he'⟩

theorem entries_modifyValue (e : Nat) (f : α → α) :
    (l.modifyValue e f).entries = l.entries.map (fun x => if x.1 = e then (x.1, f x.2) else x) := by
  simp only [modifyValue, entries, List.map_filterMap]
  refine List.filterMap_congr (fun e' _ => ?_)
  rw [List.getElem?_modify]
  by_cases he : e = e'
  · subst he
    cases l.heap[e]? <;> simp
  · cases l.heap[e']? <;> simp [he, Ne.symm he]

theorem value_modifyValue (e : Nat) (f : α → α) :
    (l.modifyValue e f).value e = (l.value e).map f := by
  simp [modifyValue, value]

end ContainerList

end PlacementDriver.Go
