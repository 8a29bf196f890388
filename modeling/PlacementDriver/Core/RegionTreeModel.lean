import PlacementDriver.Core.RegionTree

/-!
# The region tree against a list of disjoint regions

What `regionTree` is for, said without a btree: it stores a set of regions
with pairwise disjoint ranges. `update r` forgets every stored region whose
range meets `r`'s and keeps `r`; `remove r` forgets the region containing
`r`'s start key, but only when it has `r`'s id. We take this as the reference
model, on plain lists (`refUpdate`, `refRemove`), and show that along any
sequence of calls the tree holds exactly the model's regions (`Refines`),
after which each query of the tree answers the question the model poses.

The proof is a simulation: `refines_update` and `refines_remove` are the step
lemmas, `refines_run` the run lemma, and the query lemmas transport the
specifications of `RegionTree` from the tree's items to the model's list.

One query does not answer the question its doc comment suggests. `searchPrev`
looks at the region just before the one containing the key and compares end
and start keys; a region whose *empty* end key (the end of the key space)
"equals" an empty start key is never returned, since nothing starts before
the empty key. `searchPrev_misses_empty_touch` exhibits this on the one-region
tree every cluster starts from.
-/

namespace PlacementDriver

open Metapb Verified

namespace RegionTree

/-- One call on the region tree. -/
inductive Op where
  | update (region : Region)
  | remove (region : Region)
deriving DecidableEq, Repr

/-- The region a call is made with. -/
def Op.region : Op → Region
  | .update r => r
  | .remove r => r

/-- The tree after one call; `update`'s returned overlaps are dropped. -/
def Op.apply (t : RegionTree) : Op → RegionTree
  | .update r => (t.update r).1
  | .remove r => t.remove r

/-- The tree after a sequence of calls. -/
def run (t : RegionTree) (ops : List Op) : RegionTree := ops.foldl Op.apply t

/-! ## The reference model -/

/-- `update r` in the model: keep the regions not meeting `r`, then add `r`. -/
def refUpdate (l : List Region) (r : Region) : List Region :=
  l.filter (fun x => ¬ Meets r x) ++ [r]

/-- The regions the model's `update r` deletes. -/
def refDeleted (l : List Region) (r : Region) : List Region :=
  l.filter (fun x => Meets r x)

/-- `remove r` in the model: forget the region containing `r`'s start key when
it has `r`'s id. -/
def refRemove (l : List Region) (r : Region) : List Region :=
  match l.find? (fun x => Covers r.startKey x) with
  | some x => if x.id = r.id then l.erase x else l
  | none => l

/-- The model after one call. -/
def refApply (l : List Region) : Op → List Region
  | .update r => refUpdate l r
  | .remove r => refRemove l r

/-- The model after a sequence of calls. -/
def refRun (l : List Region) (ops : List Op) : List Region := ops.foldl refApply l

/-- The simulation relation: the tree is well formed and holds exactly the
model's regions, which the model lists once each. -/
structure Refines (t : RegionTree) (l : List Region) : Prop where
  wf : t.WF
  mem : ∀ x, x ∈ t.tree.items ↔ x ∈ l
  nodup : l.Nodup

section Simulation

variable {t : RegionTree} {l : List Region}

theorem refines_init : Refines newRegionTree [] :=
  ⟨⟨List.Pairwise.nil, fun _ h => absurd h List.not_mem_nil⟩, fun _ => Iff.rfl, List.nodup_nil⟩

/-- A region meets its own range when that range is nonempty. -/
theorem meets_self {r : Region} (hr : Proper r) : Meets r r := ⟨hr, hr⟩

/-- The tree's items are a permutation of the model's list. -/
theorem Refines.perm (h : Refines t l) : t.tree.items.Perm l := by
  have hnodup : t.tree.items.Nodup :=
    h.wf.sorted.imp (fun {a b} hab (heq : a = b) => absurd hab (heq ▸ lt_irrefl _))
  exact (List.perm_ext_iff_of_nodup hnodup h.nodup).mpr h.mem

/-- At most one region of the model covers a key. -/
theorem Refines.covers_unique (h : Refines t l) {a b : Region} {k : Key} (ha : a ∈ l)
    (hb : b ∈ l) (hka : Covers k a) (hkb : Covers k b) : a = b :=
  KeyRange.covers_unique h.wf.chain ((h.mem a).mpr ha) ((h.mem b).mpr hb) hka hkb

/-- The step lemma for `update`. -/
theorem refines_update (h : Refines t l) {r : Region} (hr : Proper r) :
    Refines (t.update r).1 (refUpdate l r) := by
  refine ⟨wf_update h.wf hr, fun x => ?_, ?_⟩
  · rw [mem_update h.wf hr, h.mem x]
    simp only [refUpdate, List.mem_append, List.mem_filter, decide_eq_true_eq, List.mem_singleton]
    exact or_comm
  · refine List.Nodup.append (h.nodup.filter _) (List.nodup_singleton r) ?_
    intro x hx hxr
    rw [List.mem_singleton] at hxr
    subst hxr
    exact of_decide_eq_true (List.mem_filter.mp hx).2 (meets_self hr)

/-- `update` returns the model's deleted regions, up to order. -/
theorem update_snd_perm (h : Refines t l) (r : Region) :
    (t.update r).2.Perm (refDeleted l r) := by
  rw [update_snd h.wf]
  exact h.perm.filter _

/-- The step lemma for `remove`. -/
theorem refines_remove (h : Refines t l) (r : Region) : Refines (t.remove r) (refRemove l r) := by
  refine ⟨wf_remove h.wf, fun x => ?_, ?_⟩
  · rw [mem_remove h.wf, h.mem x]
    unfold refRemove
    cases hfind : l.find? (fun x => Covers r.startKey x) with
    | none =>
        have hnone := List.find?_eq_none.mp hfind
        exact ⟨fun hx => hx.1, fun hx => ⟨hx, fun hc => by simpa [hc.1] using hnone x hx⟩⟩
    | some y =>
        have hy : y ∈ l := List.mem_of_find?_eq_some hfind
        have hyk : Covers r.startKey y := by simpa using List.find?_some hfind
        dsimp only
        by_cases hid : y.id = r.id
        · rw [if_pos hid, h.nodup.mem_erase_iff]
          constructor
          · rintro ⟨hx, hn⟩
            exact ⟨fun hxy => hn ⟨hxy ▸ hyk, hxy ▸ hid⟩, hx⟩
          · rintro ⟨hxy, hx⟩
            exact ⟨hx, fun hc => hxy (h.covers_unique hx hy hc.1 hyk)⟩
        · rw [if_neg hid]
          refine ⟨fun hx => hx.1, fun hx => ⟨hx, fun hc => hid ?_⟩⟩
          rw [← h.covers_unique hx hy hc.1 hyk]
          exact hc.2
  · unfold refRemove
    split
    · split
      · exact h.nodup.erase _
      · exact h.nodup
    · exact h.nodup

/-- The run lemma: along any sequence of calls on nonempty ranges the tree
simulates the model. -/
theorem refines_run (h : Refines t l) (ops : List Op)
    (hops : ∀ op ∈ ops, Proper op.region) : Refines (run t ops) (refRun l ops) := by
  induction ops generalizing t l with
  | nil => exact h
  | cons op ops ih =>
      have htail : ∀ op ∈ ops, Proper op.region := fun o ho => hops o (List.mem_cons_of_mem _ ho)
      cases op with
      | update r =>
          exact ih (refines_update h (hops (.update r) List.mem_cons_self)) htail
      | remove r => exact ih (refines_remove h r) htail

/-- The model's ranges are pairwise disjoint. -/
theorem Refines.disjoint (h : Refines t l) : l.Pairwise (fun a b => ¬ Meets a b) := by
  have hchain : t.tree.items.Pairwise (fun a b => ¬ Meets a b) := h.wf.pairwise_disjoint
  have hsymm : ∀ {a b : Region}, ¬ Meets a b → ¬ Meets b a :=
    fun hn hmeet => hn ⟨hmeet.2, hmeet.1⟩
  exact (h.perm.pairwise_iff (fun {_ _} => hsymm)).mp hchain

end Simulation

/-! ## Queries answered by the model -/

section Queries

variable {t : RegionTree} {l : List Region}

theorem Refines.search_eq_some_iff (h : Refines t l) {k : Key} {x : Region} :
    t.search k = some x ↔ x ∈ l ∧ Covers k x := by
  rw [RegionTree.search_eq_some_iff h.wf, h.mem]

theorem Refines.searchPrev_eq_some_iff (h : Refines t l) {k : Key} {p : Region} :
    t.searchPrev k = some p ↔
      ∃ c ∈ l, Covers k c ∧ p ∈ l ∧ p.endKey ≠ [] ∧ p.endKey = c.startKey := by
  rw [RegionTree.searchPrev_eq_some_iff h.wf]
  simp only [h.mem]

theorem Refines.getAdjacentRegions_fst_eq_some_iff (h : Refines t l) {r p : Region} :
    (t.getAdjacentRegions r).1 = some p ↔
      p ∈ l ∧ p.startKey < r.startKey ∧
        ∀ q ∈ l, q.startKey < r.startKey → q.startKey ≤ p.startKey := by
  rw [RegionTree.getAdjacentRegions_fst_eq_some_iff h.wf]
  simp only [h.mem]

theorem Refines.getAdjacentRegions_snd_eq_some_iff (h : Refines t l) {r n : Region} :
    (t.getAdjacentRegions r).2 = some n ↔
      n ∈ l ∧ r.startKey < n.startKey ∧
        ∀ q ∈ l, r.startKey < q.startKey → n.startKey ≤ q.startKey := by
  rw [RegionTree.getAdjacentRegions_snd_eq_some_iff h.wf]
  simp only [h.mem]

end Queries

/-! ## The region tree, call by call -/

/-- Along any sequence of `update` and `remove` calls on well-formed regions
from an empty tree, the tree holds the reference model's regions, whose ranges
are disjoint; `update` returns the regions the model deletes; `search` finds
the region containing a key; `searchPrev` finds the region whose nonempty end
key is the start key of that region; and `getAdjacentRegions` finds the
nearest regions on either side of a start key. -/
theorem regionTree_refines_reference (ops : List Op)
    (hops : ∀ op ∈ ops, op.region.startKey < op.region.endKey ∨ op.region.endKey = []) :
    (run newRegionTree ops).tree.items.Perm (refRun [] ops) ∧
    (refRun [] ops).Pairwise (fun a b => ¬ Meets a b) ∧
    (∀ r : Region, ((run newRegionTree ops).update r).2.Perm (refDeleted (refRun [] ops) r)) ∧
    (∀ (k : Key) (x : Region),
      (run newRegionTree ops).search k = some x ↔ x ∈ refRun [] ops ∧ Covers k x) ∧
    (∀ (k : Key) (p : Region),
      (run newRegionTree ops).searchPrev k = some p ↔
        ∃ c ∈ refRun [] ops, Covers k c ∧ p ∈ refRun [] ops ∧ p.endKey ≠ [] ∧
          p.endKey = c.startKey) ∧
    (∀ r p : Region,
      ((run newRegionTree ops).getAdjacentRegions r).1 = some p ↔
        p ∈ refRun [] ops ∧ p.startKey < r.startKey ∧
          ∀ q ∈ refRun [] ops, q.startKey < r.startKey → q.startKey ≤ p.startKey) ∧
    (∀ r n : Region,
      ((run newRegionTree ops).getAdjacentRegions r).2 = some n ↔
        n ∈ refRun [] ops ∧ r.startKey < n.startKey ∧
          ∀ q ∈ refRun [] ops, r.startKey < q.startKey → n.startKey ≤ q.startKey) := by
  have h := refines_run refines_init ops (fun op hop => proper_of_range (hops op hop))
  exact ⟨h.perm, h.disjoint, fun r => update_snd_perm h r, fun _ _ => h.search_eq_some_iff,
    fun _ _ => h.searchPrev_eq_some_iff, fun _ _ => h.getAdjacentRegions_fst_eq_some_iff,
    fun _ _ => h.getAdjacentRegions_snd_eq_some_iff⟩

/-- The region every cluster starts from: the whole key space. -/
def wholeSpace : Region := ⟨1, [], [], ⟨1, 1⟩, []⟩

/-- The tree holding only `wholeSpace` satisfies the hypothesis of
`regionTree_refines_reference`, and `search` finds `wholeSpace` for the empty
key. -/
theorem regionTree_refines_reference_wholeSpace :
    (∀ op ∈ [Op.update wholeSpace], op.region.startKey < op.region.endKey ∨
        op.region.endKey = []) ∧
      ((run newRegionTree [Op.update wholeSpace]).search [] = some wholeSpace ↔
        wholeSpace ∈ refRun [] [Op.update wholeSpace] ∧ Covers [] wholeSpace) := by
  have hops : ∀ op ∈ [Op.update wholeSpace], op.region.startKey < op.region.endKey ∨
      op.region.endKey = [] := by
    intro op hop
    rw [List.mem_singleton] at hop
    subst hop
    exact .inr rfl
  exact ⟨hops, (regionTree_refines_reference [Op.update wholeSpace] hops).2.2.2.1 [] wholeSpace⟩

/-- Without the nonemptiness of the end key, `searchPrev` is not the region
whose end key equals the start key of the region containing the key: in the
one-region tree, `wholeSpace`'s empty end key equals its own empty start key,
yet `searchPrev` returns nothing. -/
theorem searchPrev_misses_empty_touch :
    ¬ ∀ (ops : List Op),
      (∀ op ∈ ops, op.region.startKey < op.region.endKey ∨ op.region.endKey = []) →
      ∀ (k : Key) (p : Region),
        (run newRegionTree ops).searchPrev k = some p ↔
          ∃ c ∈ refRun [] ops, Covers k c ∧ p ∈ refRun [] ops ∧ p.endKey = c.startKey := by
  intro hclaim
  have hops : ∀ op ∈ [Op.update wholeSpace], op.region.startKey < op.region.endKey ∨
      op.region.endKey = [] := by
    intro op hop
    rw [List.mem_singleton] at hop
    subst hop
    exact .inr rfl
  -- `wholeSpace` covers the empty key and touches itself
  have hcovers : Covers [] wholeSpace := by
    refine ⟨le_rfl, ?_⟩
    simp only [rangeHi, wholeSpace, endBound_nil]
    exact WithTop.coe_lt_top _
  have hwitness : ∃ c ∈ refRun [] [Op.update wholeSpace], Covers [] c ∧
      wholeSpace ∈ refRun [] [Op.update wholeSpace] ∧ wholeSpace.endKey = c.startKey :=
    ⟨wholeSpace, by decide, hcovers, by decide, rfl⟩
  have hsome := (hclaim [Op.update wholeSpace] hops [] wholeSpace).mpr hwitness
  have hnone : (run newRegionTree [Op.update wholeSpace]).searchPrev [] = none := by decide
  rw [hnone] at hsome
  exact absurd hsome (by simp)

end RegionTree

end PlacementDriver
