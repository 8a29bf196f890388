import Mathlib.Data.List.MinMax

/-!
# Keeping the best candidate of a loop

Go code picks the best of a list of candidates with a loop of the shape

    var best *T; var bestScore S
    for _, x := range xs {
        score := f(x)
        if best == nil || better(x, score, best, bestScore) {
            best, bestScore = x, score
        }
    }

`keepBest score better` is one pass of that loop, on the pair of the best
candidate so far and its cached score. A candidate replaces the best only
when it is strictly better, so a tie keeps the earlier one.

When `better` compares the two candidates through a key into an order, the
loop is Mathlib's `List.argmax` (strictly greater keys win) or
`List.argmin` (strictly smaller keys win), with the cached score the score of
the result. The spec lemmas of those two (`List.argmax_eq_some_iff`,
`List.le_of_mem_argmax`, `List.index_of_argmax` and their duals) then say what
the loop picks.

## Main results

* `foldl_keepBest_eq_map_argmax`: with `better` "strictly greater key", the
  loop is `List.argmax`.
* `foldl_keepBest_eq_map_argmin`: with `better` "strictly smaller key", the
  loop is `List.argmin`.
-/

namespace PlacementDriver.Verified.KeepBest

variable {α σ β : Type*}

/-- One pass of the keep-the-best loop over the candidate `x`. -/
def keepBest (score : α → σ) (better : α → σ → α → σ → Bool) : Option (α × σ) → α → Option (α × σ)
  | none, x => some (x, score x)
  | some (b, sb), x => if better x (score x) b sb then some (x, score x) else some (b, sb)

variable {score : α → σ} {better : α → σ → α → σ → Bool}

/-- The candidate paired with its score. -/
def withScore (score : α → σ) (a : α) : α × σ := (a, score a)

/-- The loop from any candidate is the `argAux` fold of the relation `better`
decides, with the score of the result cached beside it. -/
theorem foldl_keepBest (r : α → α → Prop) [DecidableRel r]
    (hr : ∀ x b, better x (score x) b (score b) = true ↔ r x b) (l : List α) (o : Option α) :
    l.foldl (keepBest score better) (o.map (withScore score)) =
      (l.foldl (List.argAux r) o).map (withScore score) := by
  induction l generalizing o with
  | nil => rfl
  | cons x l ih =>
    have hstep : keepBest score better (o.map (withScore score)) x = (List.argAux r o x).map (withScore score) := by
      cases o with
      | none => rfl
      | some b =>
        -- the loop's test and the relation agree on the pair
        cases hb : better x (score x) b (score b) with
        | true => simp [keepBest, List.argAux, withScore, hb, (hr x b).mp hb]
        | false =>
          have hn : ¬ r x b := fun h => by simp [(hr x b).mpr h] at hb
          simp [keepBest, List.argAux, withScore, hb, hn]
    rw [List.foldl_cons, List.foldl_cons, hstep, ih]

variable [Preorder β] [DecidableLT β] (f : α → β)

theorem foldl_keepBest_eq_map_argmax (hbetter : ∀ x b, better x (score x) b (score b) = true ↔ f b < f x)
    (l : List α) : l.foldl (keepBest score better) none = (l.argmax f).map (withScore score) :=
  foldl_keepBest _ hbetter l none

theorem foldl_keepBest_eq_map_argmin (hbetter : ∀ x b, better x (score x) b (score b) = true ↔ f x < f b)
    (l : List α) : l.foldl (keepBest score better) none = (l.argmin f).map (withScore score) :=
  foldl_keepBest _ hbetter l none

end PlacementDriver.Verified.KeepBest
