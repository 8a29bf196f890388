import PlacementDriver.Verified.GoMap

/-!
# Refining a queue of groups

A partition refinement keeps a queue of groups and, one test at a time,
replaces each group by its subgroups of elements the test does not tell
apart. Two elements are then in one group after `k` rounds exactly when none
of the first `k` tests told them apart, so the queue empties at the first
round after which no two elements are left together.

We speak of the elements left together through `PairIn`: `a` before `b` in
one group. A group of two or more elements holds a pair, so a queue whose
groups all have two or more elements is empty exactly when it holds no pair.

The groups of one round come from a map of lists filled by the Go idiom
`m[k] = append(m[k], x)` (`GoMap.appendAt`), keeping the lists of two or more
elements: `pairIn_groups` reads the pairs of such a map off its lists.

## Main results

* `pairIn_flatMap`: a round that splits each group by a relation leaves the
  pairs of the queue that the relation relates.
* `eq_nil_iff_not_pairIn`: a queue of groups of two or more elements is empty
  exactly when it holds no pair.
* `pairIn_groups`: the pairs in the large groups of a map are the pairs of
  its lists.
* `pair_sublist_filter_iff`: a pair of a filtered list is a pair of the list
  whose two elements pass.
-/

namespace PlacementDriver.Verified.PairRefinement

open scoped List

variable {α κ : Type*}

/-- `a` and `b` are left together: `a` before `b` in one group of the queue. -/
def PairIn (queue : List (List α)) (a b : α) : Prop := ∃ g ∈ queue, [a, b] <+ g

theorem pairIn_singleton {l : List α} {a b : α} : PairIn [l] a b ↔ [a, b] <+ l := by
  simp [PairIn]

/-- One round: each group is replaced by its subgroups, whose pairs are the
group's pairs that `R` relates. -/
theorem pairIn_flatMap {split : List α → List (List α)} {R : α → α → Prop}
    (hsplit : ∀ g a b, PairIn (split g) a b ↔ [a, b] <+ g ∧ R a b) (queue : List (List α)) (a b : α) :
    PairIn (queue.flatMap split) a b ↔ PairIn queue a b ∧ R a b := by
  constructor
  · rintro ⟨g', hg', hab⟩
    obtain ⟨g, hg, hg'g⟩ := List.mem_flatMap.mp hg'
    obtain ⟨hsub, hR⟩ := (hsplit g a b).mp ⟨g', hg'g, hab⟩
    exact ⟨⟨g, hg, hsub⟩, hR⟩
  · rintro ⟨⟨g, hg, hsub⟩, hR⟩
    obtain ⟨g', hg', hab⟩ := (hsplit g a b).mpr ⟨hsub, hR⟩
    exact ⟨g', List.mem_flatMap.mpr ⟨g, hg, hg'⟩, hab⟩

/-- A list of two or more elements holds a pair: its first two. -/
theorem exists_pair_sublist {l : List α} (hl : 1 < l.length) : ∃ a b, [a, b] <+ l := by
  match l, hl with
  | a :: b :: rest, _ => exact ⟨a, b, ((List.nil_sublist rest).cons_cons b).cons_cons a⟩

theorem eq_nil_iff_not_pairIn {queue : List (List α)} (hlen : ∀ g ∈ queue, 1 < g.length) :
    queue = [] ↔ ∀ a b, ¬ PairIn queue a b := by
  constructor
  · rintro rfl a b ⟨g, hg, -⟩
    exact absurd hg List.not_mem_nil
  · intro hnone
    cases queue with
    | nil => rfl
    | cons g queue =>
      obtain ⟨a, b, hab⟩ := exists_pair_sublist (hlen g List.mem_cons_self)
      exact absurd ⟨g, List.mem_cons_self, hab⟩ (hnone a b)

/-- Elements left together by no test: the queue holds no pair exactly when
no two elements of the list are related, which is `Pairwise` of the negation. -/
theorem pairwise_iff_not_pairIn {l : List α} {R : α → α → Prop} {queue : List (List α)}
    (hq : ∀ a b, PairIn queue a b ↔ [a, b] <+ l ∧ R a b) :
    l.Pairwise (fun a b => ¬ R a b) ↔ ∀ a b, ¬ PairIn queue a b := by
  rw [List.pairwise_iff_forall_sublist]
  constructor
  · rintro h a b hab
    obtain ⟨hsub, hR⟩ := (hq a b).mp hab
    exact h hsub hR
  · intro h a b hsub hR
    exact h a b ((hq a b).mpr ⟨hsub, hR⟩)

theorem pair_sublist_filter_iff {l : List α} {p : α → Bool} {a b : α} :
    [a, b] <+ l.filter p ↔ [a, b] <+ l ∧ p a = true ∧ p b = true := by
  constructor
  · intro h
    have hmem : ∀ x ∈ [a, b], p x = true := fun x hx => (List.mem_filter.mp (h.subset hx)).2
    exact ⟨h.trans List.filter_sublist, hmem a (by simp), hmem b (by simp)⟩
  · rintro ⟨h, ha, hb⟩
    have hkeep : [a, b].filter p = [a, b] := by simp [ha, hb]
    exact hkeep ▸ h.filter p

variable [DecidableEq κ]

/-- The lists of two or more elements of a map hold the pairs of its lists. -/
theorem pairIn_groups (m : AList (fun _ : κ => List α)) (a b : α) :
    PairIn ((m.entries.filter fun e => 1 < e.2.length).map (·.2)) a b ↔
      ∃ k, [a, b] <+ (m.lookup k).getD [] := by
  constructor
  · rintro ⟨g, hg, hab⟩
    obtain ⟨e, he, rfl⟩ := List.mem_map.mp hg
    refine ⟨e.1, ?_⟩
    rw [AList.mem_lookup_iff.mpr (List.mem_filter.mp he).1]
    exact hab
  · rintro ⟨k, hab⟩
    cases hk : m.lookup k with
    | none =>
      rw [hk] at hab
      exact absurd hab (by simp)
    | some g =>
      rw [hk, Option.getD_some] at hab
      have hlen : 1 < g.length := hab.length_le
      refine ⟨g, List.mem_map.mpr ⟨⟨k, g⟩, List.mem_filter.mpr ⟨AList.mem_lookup_iff.mp hk, ?_⟩, rfl⟩, hab⟩
      simpa using hlen

end PlacementDriver.Verified.PairRefinement
