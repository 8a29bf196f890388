import Mathlib.Data.List.AList

/-!
# A write buffer overlaid on a table

A store that keeps its writes in a buffer and writes them out in batches is
read, by one who knows the buffer, through it: a key the buffer holds has the
buffered value, any other key the value of the table underneath.
`overlay enc buf g` is that view of the table `g : α → Option γ` under the
buffer `buf`, an association list whose values `enc` encodes on the way out.

`putAll g puts` is the table after a batch of puts applied in order. The
lemmas say how the view moves with the buffer and the table: writing the whole
buffer out and emptying it leaves the view as it was, a write into the buffer
is an update of the view, and a change of the table under a buffered key does
not show through.

## Main results

* `putAll_entries_overlay`: writing out every buffered entry gives the view,
  so an emptied buffer over the written table shows what the full one did.
* `overlay_insert`: a write into the buffer updates the view at its key.
* `overlay_update_of_lookup_eq_none`, `overlay_update_of_lookup_eq_some`: an
  update of the table shows through the buffer exactly at the keys the buffer
  does not hold.
* `length_entries_insert_le`: a write adds at most one entry to the buffer,
  and one exactly under a new key.
-/

namespace PlacementDriver.Verified.Overlay

variable {α β γ : Type*} [DecidableEq α]

/-- The table `g` as seen through the buffer `buf`: buffered entries first,
encoded by `enc`. -/
def overlay (enc : β → γ) (buf : AList (fun _ : α => β)) (g : α → Option γ) : α → Option γ :=
  fun k =>
    match buf.lookup k with
    | some v => some (enc v)
    | none => g k

/-- The table after the puts of a batch, applied in order. -/
def putAll (g : α → Option γ) (puts : List (α × γ)) : α → Option γ :=
  puts.foldl (fun g p => Function.update g p.1 (some p.2)) g

variable {enc : β → γ} {buf : AList (fun _ : α => β)} {g : α → Option γ}

theorem overlay_of_lookup_eq_some {k : α} {v : β} (h : buf.lookup k = some v) :
    overlay enc buf g k = some (enc v) := by
  simp [overlay, h]

theorem overlay_of_lookup_eq_none {k : α} (h : buf.lookup k = none) : overlay enc buf g k = g k := by
  simp [overlay, h]

@[simp] theorem overlay_empty : overlay enc (∅ : AList (fun _ : α => β)) g = g := by
  funext k
  exact overlay_of_lookup_eq_none (AList.lookup_empty k)

theorem overlay_insert (k : α) (v : β) :
    overlay enc (buf.insert k v) g = Function.update (overlay enc buf g) k (some (enc v)) := by
  funext k'
  by_cases hk : k' = k
  · subst hk
    simp [overlay_of_lookup_eq_some (AList.lookup_insert buf)]
  · rw [Function.update_of_ne hk]
    simp [overlay, AList.lookup_insert_ne hk]

/-- An update of the table under a key the buffer does not hold shows through. -/
theorem overlay_update_of_lookup_eq_none {k : α} (h : buf.lookup k = none) (x : Option γ) :
    overlay enc buf (Function.update g k x) = Function.update (overlay enc buf g) k x := by
  funext k'
  by_cases hk : k' = k
  · subst hk
    simp [overlay_of_lookup_eq_none h]
  · simp [overlay, Function.update_of_ne hk]

/-- An update of the table under a buffered key is hidden by the buffer. -/
theorem overlay_update_of_lookup_eq_some {k : α} {v : β} (h : buf.lookup k = some v) (x : Option γ) :
    overlay enc buf (Function.update g k x) = overlay enc buf g := by
  funext k'
  by_cases hk : k' = k
  · subst hk
    rw [overlay_of_lookup_eq_some h, overlay_of_lookup_eq_some h]
  · simp [overlay, Function.update_of_ne hk]

@[simp] theorem putAll_nil : putAll g ([] : List (α × γ)) = g := rfl

theorem putAll_cons (p : α × γ) (puts : List (α × γ)) :
    putAll g (p :: puts) = putAll (Function.update g p.1 (some p.2)) puts := rfl

/-- The puts of a key-unique list of entries, read at one key: the entry's
value if the list has the key, the table's otherwise. -/
theorem putAll_map_apply (l : List (Σ _ : α, β)) (hl : l.NodupKeys) (g : α → Option γ) (k : α) :
    putAll g (l.map fun e => (e.1, enc e.2)) k =
      match l.dlookup k with
      | some v => some (enc v)
      | none => g k := by
  -- induction on the entries; the table grows by the head's put
  induction l generalizing g with
  | nil => rfl
  | cons e l ih =>
    obtain ⟨a, b⟩ := e
    obtain ⟨hnot, hl⟩ := List.nodupKeys_cons.mp hl
    rw [List.map_cons, putAll_cons, ih hl]
    by_cases hk : k = a
    · -- the head's key is in no later entry, so its put is what is read
      subst hk
      have hnone : l.dlookup k = none := List.dlookup_eq_none.mpr hnot
      simp [hnone, List.dlookup_cons_eq]
    · rw [List.dlookup_cons_ne l ⟨a, b⟩ hk]
      cases l.dlookup k <;> simp [Function.update_of_ne hk]

/-- Writing out every buffered entry gives the table the buffer showed. -/
theorem putAll_entries_overlay (buf : AList (fun _ : α => β)) (g : α → Option γ) :
    putAll g (buf.entries.map fun e => (e.1, enc e.2)) = overlay enc buf g := by
  funext k
  rw [putAll_map_apply buf.entries buf.nodupKeys g k]
  rfl

/-! ## The size of the buffer -/

/-- A write into the buffer adds at most one entry. -/
theorem length_entries_insert_le (buf : AList (fun _ : α => β)) (k : α) (v : β) :
    (buf.insert k v).entries.length ≤ buf.entries.length + 1 := by
  rw [AList.entries_insert, List.length_cons]
  exact Nat.succ_le_succ (List.kerase_sublist k buf.entries).length_le

/-- A write under a key the buffer does not hold adds an entry. -/
theorem length_entries_insert_of_lookup_eq_none {k : α} (h : buf.lookup k = none) (v : β) :
    (buf.insert k v).entries.length = buf.entries.length + 1 := by
  rw [AList.entries_insert_of_notMem (AList.lookup_eq_none.mp h), List.length_cons]

end PlacementDriver.Verified.Overlay
