import PlacementDriver.Vendor.BTree
import PlacementDriver.Core.RegionInfo
import PlacementDriver.Verified.KeyRange

/-!
# `regionTree`: the key-range index of regions

`server/core/region_tree.go` keeps the metas of the cached regions in a
google/btree ordered by start key (`regionItem.Less`). Every operation starts
from `find`, which descends from a start key to the last region starting at
or before it and keeps that region only if it `Contains` the key.

`update` is the delicate one: it scans forward from the region found for the
new start key (or from the new start key itself when none is found) and stops
at the first region starting at or after the new end key, an empty end key
meaning the scan never stops; it then deletes what it collected and inserts
the new region.

The first half of this file transcribes the Go functions. The second half
proves, for a tree whose items form a `KeyRange.Chain` of nonempty ranges
(`RegionTree.WF`), what each of them computes:

* `find_eq_probe` — `find` is the chain probe of `KeyRange`;
* `update_snd` — `update` returns exactly the stored regions meeting the new
  range, and `mem_update` says what the new tree holds;
* `wf_update`, `wf_remove` — both writes keep the tree a chain.
-/

namespace PlacementDriver

open Metapb Vendor Verified

/-- `regionTree`: the btree of `regionItem`s, each wrapping a region meta. -/
structure RegionTree where
  tree : BTree Region

namespace RegionTree

/-- `regionItem.Contains(key)`. -/
def contains (r : Region) (key : Key) : Bool :=
  decide (r.startKey ≤ key) && (r.endKey.isEmpty || decide (key < r.endKey))

/-- `newRegionTree()`. -/
def newRegionTree : RegionTree := ⟨BTree.new⟩

/-- `length()`. -/
def length (t : RegionTree) : Nat := t.tree.len

/-- `find(region)`: the last region starting at or before `region`'s start
key, if it contains that key. -/
def find (t : RegionTree) (region : Region) : Option Region :=
  match t.tree.descendLessOrEqual Region.startKey region (fun _ i => (some i, false)) none with
  | some result => if contains result region.startKey then some result else none
  | none => none

/-- `update(region)`: delete every region overlapping `region`, insert it, and
return the deleted ones. -/
def update (t : RegionTree) (region : Region) : RegionTree × List Region :=
  let result := (t.find region).getD region
  let overlaps := t.tree.ascendGreaterOrEqual Region.startKey result
    (fun overlaps i =>
      if !region.endKey.isEmpty && decide (region.endKey ≤ i.startKey) then (overlaps, false)
      else (overlaps ++ [i], true)) []
  let tree := overlaps.foldl (BTree.delete Region.startKey) t.tree
  (⟨tree.replaceOrInsert Region.startKey region⟩, overlaps)

/-- `remove(region)`: delete the region found for `region`'s start key, but
only when it has `region`'s id. -/
def remove (t : RegionTree) (region : Region) : RegionTree :=
  match t.find region with
  | none => t
  | some result => if result.id ≠ region.id then t else ⟨t.tree.delete Region.startKey result⟩

/-- `search(regionKey)`: the region containing the key. -/
def search (t : RegionTree) (regionKey : Key) : Option Region :=
  t.find (Region.ofStartKey regionKey)

/-- `getAdjacentRegions(region)`: the nearest regions starting strictly before
and strictly after `region`'s start key. -/
def getAdjacentRegions (t : RegionTree) (region : Region) : Option Region × Option Region :=
  let item := Region.ofStartKey region.startKey
  let next := t.tree.ascendGreaterOrEqual Region.startKey item
    (fun next i => if item.startKey = i.startKey then (next, true) else (some i, false)) none
  let prev := t.tree.descendLessOrEqual Region.startKey item
    (fun prev i => if item.startKey = i.startKey then (prev, true) else (some i, false)) none
  (prev, next)

/-- `searchPrev(regionKey)`: the region just before the one containing the
key, when the two touch. -/
def searchPrev (t : RegionTree) (regionKey : Key) : Option Region :=
  match t.find (Region.ofStartKey regionKey) with
  | none => none
  | some cur =>
      match (t.getAdjacentRegions cur).1 with
      | none => none
      | some prev => if prev.endKey = cur.startKey then some prev else none

/-- `scanRange(startKey, f)`: run `f` over the regions starting at or after
`startKey` until it returns false. -/
def scanRange {σ : Type} (t : RegionTree) (startKey : Key) (f : σ → Region → σ × Bool)
    (s : σ) : σ :=
  t.tree.ascendGreaterOrEqual Region.startKey (Region.ofStartKey startKey) f s

/-! ## Regions as key ranges -/

/-- The upper end of a region's range. -/
def rangeHi (r : Region) : WithTop Key := endBound r.endKey

/-- The region covers key `k`. -/
abbrev Covers (k : Key) (r : Region) : Prop := KeyRange.Covers Region.startKey rangeHi k r

/-- The region `r` meets the range of `region`. -/
abbrev Meets (region r : Region) : Prop :=
  KeyRange.Meets Region.startKey rangeHi region.startKey (rangeHi region) r

/-- The region owns a nonempty range. -/
abbrev Proper (r : Region) : Prop := KeyRange.Proper Region.startKey rangeHi r

/-- The tree invariant: the items form a chain of nonempty ranges. -/
structure WF (t : RegionTree) : Prop where
  chain : KeyRange.Chain Region.startKey rangeHi t.tree.items
  proper : ∀ r ∈ t.tree.items, Proper r

/-- The ranges of a well-formed tree are pairwise disjoint. -/
theorem WF.pairwise_disjoint {t : RegionTree} (h : t.WF) :
    t.tree.items.Pairwise (fun a b => ¬ Meets a b) :=
  h.chain.imp (fun hab hmeet => absurd hab (not_le.mpr hmeet.1))

/-- A well-formed region range is nonempty. -/
theorem proper_of_range {r : Region} (h : r.startKey < r.endKey ∨ r.endKey = []) :
    Proper r := by
  unfold Proper KeyRange.Proper rangeHi
  rcases h with h | h
  · have hne : r.endKey ≠ [] := by rintro hnil; rw [hnil] at h; exact absurd h (not_lt.mpr (nil_le_key _))
    rw [endBound_of_ne_nil hne]
    exact WithTop.coe_lt_coe.mpr h
  · rw [h, endBound_nil]
    exact WithTop.coe_lt_top _

theorem contains_iff (r : Region) (k : Key) : contains r k = true ↔ Covers k r := by
  unfold contains Covers KeyRange.Covers rangeHi endBound
  cases r.endKey.isEmpty
  · simp [WithTop.coe_lt_coe]
  · simp

/-- A sorted tree: the chain invariant implies the btree ordering. -/
theorem WF.sorted {t : RegionTree} (h : t.WF) : t.tree.Sorted Region.startKey :=
  h.chain.lo_lt h.proper

/-- Two items of a well-formed tree with the same start key are the same. -/
theorem WF.eq_of_startKey {t : RegionTree} (h : t.WF) {a b : Region} (ha : a ∈ t.tree.items)
    (hb : b ∈ t.tree.items) (hab : a.startKey = b.startKey) : a = b := by
  rcases h.chain.eq_or_sep ha hb with h' | h' | h'
  · exact h'
  · have : (a.startKey : WithTop Key) < b.startKey := lt_of_lt_of_le (h.proper a ha) h'
    exact absurd (WithTop.coe_lt_coe.mp this) (by rw [hab]; exact lt_irrefl _)
  · have : (b.startKey : WithTop Key) < a.startKey := lt_of_lt_of_le (h.proper b hb) h'
    exact absurd (WithTop.coe_lt_coe.mp this) (by rw [hab]; exact lt_irrefl _)

/-- Two nonempty regions with the same start key meet. -/
theorem meets_of_startKey_eq {region r : Region} (hreg : Proper region) (hr : Proper r)
    (h : r.startKey = region.startKey) : Meets region r :=
  ⟨h ▸ hreg, h ▸ hr⟩

/-! ## `find` -/

/-- `find` is the chain probe at the region's start key. -/
theorem find_eq_probe (t : RegionTree) (region : Region) :
    t.find region = KeyRange.probe Region.startKey rangeHi t.tree.items region.startKey := by
  have hfilter : t.tree.items.filter (fun a => ¬ region.startKey < a.startKey) =
      t.tree.items.filter (fun a => a.startKey ≤ region.startKey) :=
    List.filter_congr (fun a _ => by simp)
  unfold find BTree.descendLessOrEqual
  rw [BTree.iterate_first, List.head?_reverse, hfilter]
  unfold KeyRange.probe KeyRange.lastAtOrBefore
  cases (t.tree.items.filter (fun a => a.startKey ≤ region.startKey)).getLast? with
  | none => rfl
  | some a =>
      by_cases hc : contains a region.startKey = true
      · have hk : Covers region.startKey a := (contains_iff a _).mp hc
        simp only [hc, if_true, Option.filter_some, decide_eq_true hk]
      · have hn : ¬ Covers region.startKey a := fun h => hc ((contains_iff a _).mpr h)
        simp only [hc, Bool.false_eq_true, if_false, Option.filter_some, decide_eq_false hn]

/-! ## `update` -/

section Update

variable {t : RegionTree} {region : Region}

/-- The scan in `update` collects exactly the stored regions meeting `region`. -/
theorem update_snd (ht : t.WF) :
    (t.update region).2 = t.tree.items.filter (fun r => Meets region r) := by
  have hpivot : ((t.find region).getD region).startKey =
      KeyRange.pivot Region.startKey rangeHi t.tree.items region.startKey := by
    rw [find_eq_probe]
    unfold KeyRange.pivot
    cases KeyRange.probe Region.startKey rangeHi t.tree.items region.startKey <;> rfl
  have hstop : (fun i : Region =>
      !(!region.endKey.isEmpty && decide (region.endKey ≤ i.startKey))) =
      (fun i => decide ((i.startKey : WithTop Key) < rangeHi region)) := by
    funext i
    unfold rangeHi endBound
    cases region.endKey.isEmpty
    · simp only [Bool.not_false, Bool.true_and, Bool.false_eq_true, if_false,
        WithTop.coe_lt_coe]
      rw [← decide_not]
      exact decide_eq_decide.mpr not_le
    · simp
  have hfrom : t.tree.items.filter
      (fun a => ¬ a.startKey < ((t.find region).getD region).startKey) =
      t.tree.items.filter
        (fun a => KeyRange.pivot Region.startKey rangeHi t.tree.items region.startKey ≤
          a.startKey) :=
    List.filter_congr (fun a _ => by rw [hpivot]; simp)
  show BTree.iterate _ _ [] = _
  rw [BTree.iterate_collect, List.nil_append, hstop, hfrom]
  exact KeyRange.scan_eq_filter_meets ht.chain ht.proper

/-- Deleting the overlaps keeps exactly the stored regions not meeting
`region`. -/
theorem update_deleted (ht : t.WF) :
    ((t.update region).2.foldl (BTree.delete Region.startKey) t.tree).items =
      t.tree.items.filter (fun r => ¬ Meets region r) := by
  rw [BTree.foldl_delete, update_snd ht]
  refine List.filter_congr (fun a ha => ?_)
  rw [Bool.eq_iff_iff, decide_eq_true_eq, decide_eq_true_eq]
  constructor
  · intro hall hmeet
    exact hall a (List.mem_filter.mpr ⟨ha, decide_eq_true hmeet⟩) rfl
  · intro hnot o ho hkey
    obtain ⟨hoitem, homeet⟩ := List.mem_filter.mp ho
    exact hnot (ht.eq_of_startKey ha hoitem hkey ▸ of_decide_eq_true homeet)

theorem update_fst (ht : t.WF) :
    (t.update region).1.tree.items =
      BTree.insertItem Region.startKey region (t.tree.items.filter (fun r => ¬ Meets region r)) := by
  rw [← update_deleted ht]
  rfl

/-- What the updated tree holds: `region`, and every stored region that does
not meet it. -/
theorem mem_update (ht : t.WF) (hreg : Proper region) {b : Region} :
    b ∈ (t.update region).1.tree.items ↔ b = region ∨ (b ∈ t.tree.items ∧ ¬ Meets region b) := by
  rw [update_fst ht, BTree.mem_insertItem (ht.sorted.filter _)]
  constructor
  · rintro (h | ⟨hb, _⟩)
    · exact .inl h
    · obtain ⟨hb, hn⟩ := List.mem_filter.mp hb
      exact .inr ⟨hb, of_decide_eq_true hn⟩
  · rintro (h | ⟨hb, hn⟩)
    · exact .inl h
    · refine .inr ⟨List.mem_filter.mpr ⟨hb, decide_eq_true hn⟩, fun hkey => hn ?_⟩
      exact meets_of_startKey_eq hreg (ht.proper b hb) hkey

/-- `update` keeps the tree a chain of nonempty ranges. -/
theorem wf_update (ht : t.WF) (hreg : Proper region) : (t.update region).1.WF := by
  have hleft : ∀ a ∈ t.tree.items.filter (fun r => ¬ Meets region r),
      a.startKey < region.startKey → rangeHi a ≤ region.startKey := by
    intro a ha hlt
    obtain ⟨-, hn⟩ := List.mem_filter.mp ha
    by_contra hend
    refine of_decide_eq_true hn ⟨?_, lt_of_not_ge hend⟩
    exact lt_trans (WithTop.coe_lt_coe.mpr hlt) hreg
  have hright : ∀ a ∈ t.tree.items.filter (fun r => ¬ Meets region r),
      region.startKey < a.startKey → rangeHi region ≤ a.startKey := by
    intro a ha hlt
    obtain ⟨hmem, hn⟩ := List.mem_filter.mp ha
    by_contra hend
    refine of_decide_eq_true hn ⟨lt_of_not_ge hend, ?_⟩
    exact lt_trans (WithTop.coe_lt_coe.mpr hlt) (ht.proper a hmem)
  refine ⟨?_, ?_⟩
  · rw [KeyRange.Chain, update_fst ht]
    exact BTree.pairwise_insertItem (ht.sorted.filter _) (ht.chain.filter _) hleft hright
  · intro b hb
    rcases (mem_update ht hreg).mp hb with rfl | ⟨hb, _⟩
    · exact hreg
    · exact ht.proper b hb

end Update

/-! ## `remove` -/

section Remove

variable {t : RegionTree} {region : Region}

/-- What `remove` leaves: the stored region covering `region`'s start key is
gone when it has `region`'s id, and nothing else changes. -/
theorem mem_remove (ht : t.WF) {b : Region} :
    b ∈ (t.remove region).tree.items ↔
      b ∈ t.tree.items ∧ ¬ (Covers region.startKey b ∧ b.id = region.id) := by
  unfold remove
  rw [find_eq_probe]
  cases hp : KeyRange.probe Region.startKey rangeHi t.tree.items region.startKey with
  | none =>
      have hnone := (KeyRange.probe_eq_none_iff ht.chain).mp hp
      exact ⟨fun hb => ⟨hb, fun h => hnone b hb h.1⟩, fun h => h.1⟩
  | some f =>
      obtain ⟨hf, hfk⟩ := (KeyRange.probe_eq_some_iff ht.chain).mp hp
      by_cases hid : f.id ≠ region.id
      · dsimp only
        rw [if_pos hid]
        refine ⟨fun hb => ⟨hb, fun h => ?_⟩, fun h => h.1⟩
        exact hid (KeyRange.covers_unique ht.chain hf hb hfk h.1 ▸ h.2)
      · dsimp only
        rw [if_neg hid, BTree.mem_delete]
        have hfid : f.id = region.id := not_not.mp hid
        constructor
        · rintro ⟨hb, hkey⟩
          exact ⟨hb, fun h => hkey (by rw [KeyRange.covers_unique ht.chain hf hb hfk h.1])⟩
        · rintro ⟨hb, hn⟩
          refine ⟨hb, fun hkey => hn ⟨?_, ?_⟩⟩
          · rw [ht.eq_of_startKey hb hf hkey]; exact hfk
          · rw [ht.eq_of_startKey hb hf hkey]; exact hfid

/-- `remove` changes nothing when no stored region covering `region`'s start
key has `region`'s id. -/
theorem remove_eq_self (ht : t.WF)
    (h : ∀ b ∈ t.tree.items, Covers region.startKey b → b.id ≠ region.id) : t.remove region = t := by
  unfold remove
  rw [find_eq_probe]
  cases hp : KeyRange.probe Region.startKey rangeHi t.tree.items region.startKey with
  | none => rfl
  | some f =>
      obtain ⟨hf, hfk⟩ := (KeyRange.probe_eq_some_iff ht.chain).mp hp
      dsimp only
      rw [if_pos (h f hf hfk)]

/-- `remove` keeps the tree a chain of nonempty ranges. -/
theorem wf_remove (ht : t.WF) : (t.remove region).WF := by
  unfold remove
  split
  · exact ht
  · split
    · exact ht
    · exact ⟨ht.chain.filter _, fun b hb => ht.proper b (List.mem_filter.mp hb).1⟩

end Remove

/-! ## Trees sorted by start key alone

`loadRegions` may cache regions whose range is empty or reversed, and then the
tree is no chain: it is only sorted by start key, as the btree keeps it. What
`SetRegion` needs of `find`, `update` and `remove` follows from that alone. -/

section Sorted

variable {t : RegionTree} {region : Region}

/-- `find` returns a stored region. -/
theorem find_mem {f : Region} (h : t.find region = some f) : f ∈ t.tree.items := by
  rw [find_eq_probe] at h
  obtain ⟨hl, -⟩ := Option.filter_eq_some_iff.mp h
  exact (List.mem_filter.mp (List.mem_of_getLast? hl)).1

/-- `remove` changes nothing when no stored region has `region`'s id. -/
theorem remove_eq_self_of_id (h : ∀ b ∈ t.tree.items, b.id ≠ region.id) : t.remove region = t := by
  unfold remove
  cases hf : t.find region with
  | none => rfl
  | some f =>
      dsimp only
      rw [if_pos (h f (find_mem hf))]

/-- The overlaps `update` reports are stored regions, in order. -/
theorem update_snd_sublist : (t.update region).2.Sublist t.tree.items := by
  show List.Sublist (BTree.iterate _ _ []) _
  rw [BTree.iterate_collect, List.nil_append]
  exact (List.takeWhile_sublist _).trans List.filter_sublist

/-- The updated tree: `region` inserted into what the deletes of the overlaps
left. -/
theorem update_fst_items : (t.update region).1.tree.items =
    BTree.insertItem Region.startKey region
      (t.tree.items.filter fun a => ∀ x ∈ (t.update region).2, a.startKey ≠ x.startKey) := by
  rw [← BTree.foldl_delete]
  rfl

/-- What the updated tree holds: `region`, and the stored regions whose start
key is neither an overlap's nor `region`'s. -/
theorem mem_update_of_sorted (hs : t.tree.Sorted Region.startKey) {b : Region} :
    b ∈ (t.update region).1.tree.items ↔ b = region ∨
      (b ∈ t.tree.items ∧ (∀ x ∈ (t.update region).2, b.startKey ≠ x.startKey) ∧
        b.startKey ≠ region.startKey) := by
  rw [update_fst_items, BTree.mem_insertItem (hs.filter _), List.mem_filter, decide_eq_true_eq, and_assoc]

theorem sorted_update (hs : t.tree.Sorted Region.startKey) : (t.update region).1.tree.Sorted Region.startKey := by
  unfold BTree.Sorted
  rw [update_fst_items]
  exact BTree.pairwise_insertItem (hs.filter _) (hs.filter _) (fun _ _ h => h) (fun _ _ h => h)

end Sorted

/-! ## Queries -/

section Query

variable {t : RegionTree}

/-- `search` returns exactly the stored region containing the key. -/
theorem search_eq_some_iff (ht : t.WF) {k : Key} {x : Region} :
    t.search k = some x ↔ x ∈ t.tree.items ∧ Covers k x := by
  rw [search, find_eq_probe]
  exact KeyRange.probe_eq_some_iff ht.chain

/-- The right neighbour is the first stored region starting after the key. -/
theorem getAdjacentRegions_snd (ht : t.WF) (region : Region) :
    (t.getAdjacentRegions region).2 =
      (t.tree.items.filter (fun a => region.startKey < a.startKey)).head? := by
  unfold getAdjacentRegions BTree.ascendGreaterOrEqual
  dsimp only
  rw [BTree.iterate_skip]
  -- the pivot item carries only the start key
  have hmono : (t.tree.items.filter
      (fun a => ¬ a.startKey < (Region.ofStartKey region.startKey).startKey)).Pairwise
      (fun x y => decide ((Region.ofStartKey region.startKey).startKey = y.startKey) = true →
        decide ((Region.ofStartKey region.startKey).startKey = x.startKey) = true) := by
    refine (ht.sorted.filter _).imp_of_mem (fun {x y} hx _ hxy hy => ?_)
    have hxs := of_decide_eq_true (List.mem_filter.mp hx).2
    exact absurd (of_decide_eq_true hy ▸ hxy) hxs
  rw [KeyRange.dropWhile_eq_filter hmono, List.filter_filter]
  congr 1
  refine List.filter_congr (fun a _ => ?_)
  rw [Bool.eq_iff_iff]
  simp only [Bool.and_eq_true, Bool.not_eq_true', decide_eq_false_iff_not, decide_eq_true_eq]
  rw [Region.ofStartKey_startKey]
  constructor
  · rintro ⟨hne, hnlt⟩
    exact lt_of_le_of_ne (not_lt.mp hnlt) hne
  · intro hlt
    exact ⟨ne_of_lt hlt, not_lt.mpr (le_of_lt hlt)⟩

/-- The left neighbour is the last stored region starting before the key. -/
theorem getAdjacentRegions_fst (ht : t.WF) (region : Region) :
    (t.getAdjacentRegions region).1 =
      (t.tree.items.filter (fun a => a.startKey < region.startKey)).getLast? := by
  unfold getAdjacentRegions BTree.descendLessOrEqual
  dsimp only
  rw [BTree.iterate_skip]
  have hmono : (t.tree.items.filter
      (fun a => ¬ (Region.ofStartKey region.startKey).startKey < a.startKey)).reverse.Pairwise
      (fun x y => decide ((Region.ofStartKey region.startKey).startKey = y.startKey) = true →
        decide ((Region.ofStartKey region.startKey).startKey = x.startKey) = true) := by
    refine List.pairwise_reverse.mpr ((ht.sorted.filter _).imp_of_mem
      (fun {y x} _ hx hyx hy => ?_))
    have hxs := of_decide_eq_true (List.mem_filter.mp hx).2
    exact absurd (of_decide_eq_true hy ▸ hyx) hxs
  rw [KeyRange.dropWhile_eq_filter hmono, List.filter_reverse, List.head?_reverse,
    List.filter_filter]
  congr 1
  refine List.filter_congr (fun a _ => ?_)
  rw [Bool.eq_iff_iff]
  simp only [Bool.and_eq_true, Bool.not_eq_true', decide_eq_false_iff_not, decide_eq_true_eq]
  rw [Region.ofStartKey_startKey]
  constructor
  · rintro ⟨hne, hnlt⟩
    exact lt_of_le_of_ne (not_lt.mp hnlt) (Ne.symm hne)
  · intro hlt
    exact ⟨ne_of_gt hlt, not_lt.mpr (le_of_lt hlt)⟩

/-- The left neighbour of a key: the stored region with the largest start key
below it. -/
theorem getAdjacentRegions_fst_eq_some_iff (ht : t.WF) {region p : Region} :
    (t.getAdjacentRegions region).1 = some p ↔
      p ∈ t.tree.items ∧ p.startKey < region.startKey ∧
        ∀ q ∈ t.tree.items, q.startKey < region.startKey → q.startKey ≤ p.startKey := by
  rw [getAdjacentRegions_fst ht, KeyRange.getLast?_filter_eq_some_iff ht.sorted]
  simp only [decide_eq_true_eq]

/-- The right neighbour of a key: the stored region with the smallest start
key above it. -/
theorem getAdjacentRegions_snd_eq_some_iff (ht : t.WF) {region n : Region} :
    (t.getAdjacentRegions region).2 = some n ↔
      n ∈ t.tree.items ∧ region.startKey < n.startKey ∧
        ∀ q ∈ t.tree.items, region.startKey < q.startKey → n.startKey ≤ q.startKey := by
  rw [getAdjacentRegions_snd ht, KeyRange.head?_filter_eq_some_iff ht.sorted]
  simp only [decide_eq_true_eq]

/-- A region whose nonempty end key is another's start key starts before it. -/
theorem startKey_lt_of_touch {p c : Region} (hp : Proper p) (hne : p.endKey ≠ [])
    (htouch : p.endKey = c.startKey) : p.startKey < c.startKey := by
  have h : (p.startKey : WithTop Key) < endBound p.endKey := hp
  rw [endBound_of_ne_nil hne, htouch] at h
  exact WithTop.coe_lt_coe.mp h

/-- In a well-formed tree, a region touching `c` from the left is the last
region starting before `c`. -/
theorem greatest_of_touch (ht : t.WF) {p c q : Region} (hp : p ∈ t.tree.items)
    (hq : q ∈ t.tree.items) (hne : p.endKey ≠ []) (htouch : p.endKey = c.startKey)
    (hqc : q.startKey < c.startKey) : q.startKey ≤ p.startKey := by
  by_contra hlt
  rcases ht.chain.eq_or_sep hp hq with rfl | hsep | hsep
  · exact hlt le_rfl
  · -- `q` starts at or after the end of `p`, which is where `c` starts
    have hend : (c.startKey : WithTop Key) ≤ q.startKey := by
      have h := hsep
      unfold rangeHi at h
      rwa [endBound_of_ne_nil hne, htouch] at h
    exact absurd (WithTop.coe_le_coe.mp hend) (not_le.mpr hqc)
  · have hq' : (q.startKey : WithTop Key) < p.startKey := lt_of_lt_of_le (ht.proper q hq) hsep
    exact hlt (le_of_lt (WithTop.coe_lt_coe.mp hq'))

/-- `searchPrev` returns exactly the stored region whose nonempty end key is the
start key of the region containing the key. -/
theorem searchPrev_eq_some_iff (ht : t.WF) {k : Key} {p : Region} :
    t.searchPrev k = some p ↔
      ∃ c ∈ t.tree.items, Covers k c ∧ p ∈ t.tree.items ∧ p.endKey ≠ [] ∧
        p.endKey = c.startKey := by
  unfold searchPrev
  rw [find_eq_probe]
  cases hc : KeyRange.probe Region.startKey rangeHi t.tree.items (Region.ofStartKey k).startKey with
  | none =>
      have hnone := (KeyRange.probe_eq_none_iff ht.chain).mp hc
      simp only [reduceCtorEq, false_iff, not_exists, not_and]
      exact fun c hcmem hck => absurd hck (hnone c hcmem)
  | some c =>
      obtain ⟨hcmem, hck⟩ := (KeyRange.probe_eq_some_iff ht.chain).mp hc
      dsimp only
      rw [getAdjacentRegions_fst ht]
      cases hq : (t.tree.items.filter (fun a => a.startKey < c.startKey)).getLast? with
      | none =>
          simp only [reduceCtorEq, false_iff, not_exists, not_and]
          intro c' hc'mem hc'k hp hne htouch
          have hcc : c' = c := KeyRange.covers_unique ht.chain hc'mem hcmem hc'k hck
          subst hcc
          have hlt := startKey_lt_of_touch (ht.proper p hp) hne htouch
          have hin : p ∈ t.tree.items.filter (fun a => a.startKey < c'.startKey) :=
            List.mem_filter.mpr ⟨hp, decide_eq_true hlt⟩
          rw [List.getLast?_eq_none_iff.mp hq] at hin
          exact absurd hin List.not_mem_nil
      | some q =>
          obtain ⟨hqmem, hqlt, hqmax⟩ := (KeyRange.getLast?_filter_eq_some_iff ht.sorted).mp hq
          have hqlt : q.startKey < c.startKey := of_decide_eq_true hqlt
          dsimp only
          constructor
          · intro h
            by_cases htouch : q.endKey = c.startKey
            · rw [if_pos htouch, Option.some.injEq] at h
              subst h
              refine ⟨c, hcmem, hck, hqmem, fun hnil => ?_, htouch⟩
              rw [hnil] at htouch
              exact absurd hqlt (not_lt.mpr (htouch ▸ nil_le_key q.startKey))
            · rw [if_neg htouch] at h
              exact absurd h (by simp)
          · rintro ⟨c', hc'mem, hc'k, hp, hne, htouch⟩
            have hcc : c' = c := KeyRange.covers_unique ht.chain hc'mem hcmem hc'k hck
            subst hcc
            have hplt := startKey_lt_of_touch (ht.proper p hp) hne htouch
            have hle : q.startKey ≤ p.startKey :=
              greatest_of_touch ht hp hqmem hne htouch hqlt
            have hge : p.startKey ≤ q.startKey := hqmax p hp (decide_eq_true hplt)
            have hpq : p = q := ht.eq_of_startKey hp hqmem (le_antisymm hge hle)
            subst hpq
            rw [if_pos htouch]

end Query

end RegionTree

end PlacementDriver
