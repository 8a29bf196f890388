import Mathlib

/-!
# A `less` function that is a strict weak order

Go's `sort` and `container/heap` take an order as `Less(i, j) bool`, and ask
that it be a strict weak order: irreflexive, transitive, and with
incomparability transitive. We take it as a `Bool` function `less` with
`IsStrictWeakOrder` on `less a b = true`, and read "not less than" as
`less a b = false`.

What a strict weak order adds to a strict order is that "not less than" is
transitive (`not_less_trans`), so incomparability is an equivalence. Lists
sorted from the greatest down are then determined by their elements up to
incomparable neighbours: two such lists that are permutations of each other
are incomparable place by place (`forall₂_incomparable_of_perm`).

## Main results

* `not_less_trans`: "not less than" is transitive.
* `forall₂_incomparable_of_perm`: two permutations of one list sorted from
  the greatest down agree up to incomparable elements.
* `pairwise_mergeSort_not_less`: `mergeSort` sorts from the greatest down.
* `forall₂_take_of_selection`: a sorted selection that leaves nothing
  greater out agrees with the start of any sorting.
-/

namespace PlacementDriver.Verified.StrictWeakOrder

variable {α : Type*} {less : α → α → Bool} [IsStrictWeakOrder α fun a b => less a b = true]

theorem not_less_self (a : α) : less a a = false := by
  simpa using irrefl_of (fun a b => less a b = true) a

theorem less_asymm {a b : α} (h : less a b = true) : less b a = false := by
  simpa using asymm_of (fun a b => less a b = true) h

theorem not_less_of_less_of_not_less {a b c : α} (hab : less a b = true) (hac : less a c = false) :
    less b c = false := by
  cases hbc : less b c
  · rfl
  · have := trans_of (fun a b => less a b = true) hab hbc
    simp [hac] at this

/-- "Not less than" is transitive. -/
theorem not_less_trans {a b c : α} (h₁ : less c b = false) (h₂ : less b a = false) : less c a = false := by
  by_contra hca
  rw [Bool.not_eq_false] at hca
  cases hbc : less b c
  · cases hab : less a b
    · -- `a` and `b`, then `b` and `c`, are incomparable, hence so are `a` and `c`
      have := @IsStrictWeakOrder.incomp_trans α (fun a b => less a b = true) _ a b c
        ⟨by simp [hab], by simp [h₂]⟩ ⟨by simp [hbc], by simp [h₁]⟩
      exact this.2 hca
    · have := trans_of (fun a b => less a b = true) hca hab
      simp [h₁] at this
  · have := trans_of (fun a b => less a b = true) hbc hca
    simp [h₂] at this

variable (less) in
/-- Neither is less than the other. -/
def Incomparable (a b : α) : Prop := less a b = false ∧ less b a = false

theorem Incomparable.refl (a : α) : Incomparable less a a := ⟨not_less_self a, not_less_self a⟩

omit [IsStrictWeakOrder α fun a b => less a b = true] in
theorem Incomparable.symm {a b : α} (h : Incomparable less a b) : Incomparable less b a := ⟨h.2, h.1⟩

theorem Incomparable.trans {a b c : α} (h₁ : Incomparable less a b) (h₂ : Incomparable less b c) :
    Incomparable less a c :=
  ⟨not_less_trans h₁.1 h₂.1, not_less_trans h₂.2 h₁.2⟩

theorem forall₂_incomparable_trans :
    ∀ {l₁ l₂ l₃ : List α}, List.Forall₂ (Incomparable less) l₁ l₂ → List.Forall₂ (Incomparable less) l₂ l₃ →
      List.Forall₂ (Incomparable less) l₁ l₃
  | [], [], [], .nil, .nil => .nil
  | _ :: _, _ :: _, _ :: _, .cons h₁ t₁, .cons h₂ t₂ => .cons (h₁.trans h₂) (forall₂_incomparable_trans t₁ t₂)

/-- A greatest element `a` of a sorted list can be taken to the front: the
others stay sorted, and the list with `a` in front is incomparable to the
list place by place. -/
theorem exists_perm_cons_of_max {a : α} :
    ∀ {l : List α}, l.Pairwise (fun a b => less a b = false) → a ∈ l → (∀ x ∈ l, less a x = false) →
      ∃ rest, l.Perm (a :: rest) ∧ rest.Pairwise (fun a b => less a b = false) ∧
        List.Forall₂ (Incomparable less) (a :: rest) l
  | [], _, ha, _ => absurd ha List.not_mem_nil
  | x :: t, hl, ha, hmax => by
    obtain ⟨hx, ht⟩ := List.pairwise_cons.mp hl
    rcases List.mem_cons.mp ha with rfl | hat
    · exact ⟨t, .rfl, ht, .cons (.refl a) (List.forall₂_same.mpr fun y _ => .refl y)⟩
    · -- `a` is further down, so `x` is as great as `a`
      obtain ⟨rest, hperm, hrest, hfa⟩ := exists_perm_cons_of_max ht hat fun y hy => hmax y (.tail x hy)
      have hxa : Incomparable less a x := ⟨hmax x List.mem_cons_self, hx a hat⟩
      refine ⟨x :: rest, (hperm.cons x).trans (.swap a x rest), ?_, .cons hxa ?_⟩
      · exact List.pairwise_cons.mpr ⟨fun y hy => hx y (hperm.symm.mem_iff.mp (.tail a hy)), hrest⟩
      · cases hfa with
        | cons hat' hrest' => exact .cons (hxa.symm.trans hat') hrest'

/-- Two permutations of one list, both sorted from the greatest down, are
incomparable place by place. -/
theorem forall₂_incomparable_of_perm :
    ∀ {l₁ l₂ : List α}, l₁.Perm l₂ → l₁.Pairwise (fun a b => less a b = false) →
      l₂.Pairwise (fun a b => less a b = false) → List.Forall₂ (Incomparable less) l₁ l₂
  | [], _, hp, _, _ => by
    rw [← hp.nil_eq]
    exact .nil
  | a :: t₁, l₂, hp, h₁, h₂ => by
    obtain ⟨ha, ht₁⟩ := List.pairwise_cons.mp h₁
    -- the head of `l₁` is a greatest element of `l₂`
    have hmax : ∀ x ∈ l₂, less a x = false := by
      intro x hx
      rcases List.mem_cons.mp (hp.symm.mem_iff.mp hx) with rfl | hx
      · exact not_less_self _
      · exact ha x hx
    obtain ⟨rest, hperm, hrest, hfa⟩ := exists_perm_cons_of_max h₂ (hp.mem_iff.mp List.mem_cons_self) hmax
    have ht : List.Forall₂ (Incomparable less) t₁ rest :=
      forall₂_incomparable_of_perm (hp.trans hperm).cons_inv ht₁ hrest
    exact forall₂_incomparable_trans (.cons (.refl a) ht) hfa

/-- `mergeSort` by "not less than" sorts from the greatest down. -/
theorem pairwise_mergeSort_not_less (l : List α) :
    (l.mergeSort fun a b => !less a b).Pairwise fun a b => less a b = false := by
  have hsorted := @List.pairwise_mergeSort α (fun a b => !less a b)
    (fun a b c hab hbc => by simpa using not_less_trans (by simpa using hab) (by simpa using hbc))
    (fun a b => by
      cases hab : less a b
      · simp
      · simp [less_asymm hab])
    l
  simpa using hsorted

/-- A sorted selection `res` that leaves nothing greater out is, place by
place, incomparable to the start of any sorting of the whole list. -/
theorem forall₂_take_of_selection {res leftOut sorted : List α}
    (hres : res.Pairwise fun a b => less a b = false) (hperm : (res ++ leftOut).Perm sorted)
    (hleft : ∀ x ∈ leftOut, ∀ y ∈ res, less y x = false) (hsorted : sorted.Pairwise fun a b => less a b = false) :
    List.Forall₂ (Incomparable less) res (sorted.take res.length) := by
  -- `res` followed by the regions left out, sorted, is a sorting of the list
  have hfull : (res ++ leftOut.mergeSort fun a b => !less a b).Pairwise fun a b => less a b = false :=
    List.pairwise_append.mpr ⟨hres, pairwise_mergeSort_not_less leftOut,
      fun y hy x hx => hleft x ((List.mergeSort_perm _ _).mem_iff.mp hx) y hy⟩
  have hp : (res ++ leftOut.mergeSort fun a b => !less a b).Perm sorted :=
    ((List.mergeSort_perm _ _).append_left res).trans hperm
  have := List.forall₂_take res.length (forall₂_incomparable_of_perm hp hfull hsorted)
  rwa [List.take_left' rfl] at this

end PlacementDriver.Verified.StrictWeakOrder
