import Mathlib

/-!
# Chains of half-open key ranges

A *chain* is a list of items, each owning the half-open range `[lo a, hi a)`
of a linearly ordered key space, listed by increasing start with every range
ending at or before the next one begins. The upper end lives in `WithTop K`,
so `⊤` is a range that is unbounded on the right.

A range-partitioned index keeps its items in such a chain and answers two
questions about it:

* which item covers a key `k`: probe the last item starting at or before `k`
  and keep it only if it really covers `k`;
* which items meet a range `[s, e)`: start at the probe's answer for `s`
  (or at `s` itself), and scan forward until an item starts at or after `e`.

Both procedures look only at a neighbourhood of `k` or `s`, so neither is
obviously right; this module proves that each answers its question exactly.
Nothing here is specific to any one index: items are an arbitrary type with
two projections `lo` and `hi`.

## Main results

* `Chain.eq_or_sep` — two items of a chain are equal or separated.
* `covers_unique` — at most one item of a chain covers a key.
* `probe_eq_some_iff` — the probe returns exactly the item covering `k`.
* `scan_eq_filter_meets` — the forward scan collects exactly the items meeting
  `[s, e)`, in chain order.
* `filter_hi_le_lo` — the items starting at or after the end of an item are
  the items after it, so a scan can page through a chain.
-/

namespace PlacementDriver.Verified.KeyRange

variable {α K : Type*} [LinearOrder K] (lo : α → K) (hi : α → WithTop K)

/-- Item `a` covers key `k`: `lo a ≤ k < hi a`. -/
def Covers (k : K) (a : α) : Prop := lo a ≤ k ∧ (k : WithTop K) < hi a

/-- Item `a` meets the range `[s, e)`. -/
def Meets (s : K) (e : WithTop K) (a : α) : Prop :=
  (lo a : WithTop K) < e ∧ (s : WithTop K) < hi a

/-- Item `a` owns a nonempty range. -/
def Proper (a : α) : Prop := (lo a : WithTop K) < hi a

/-- Items listed by start, each ending at or before the next one begins. -/
def Chain (l : List α) : Prop := l.Pairwise (fun a b => hi a ≤ lo b)

instance (k : K) (a : α) : Decidable (Covers lo hi k a) :=
  inferInstanceAs (Decidable (_ ∧ _))

instance (s : K) (e : WithTop K) (a : α) : Decidable (Meets lo hi s e a) :=
  inferInstanceAs (Decidable (_ ∧ _))

/-- The last item starting at or before `k`: where a descending search from
`k` stops first. -/
def lastAtOrBefore (l : List α) (k : K) : Option α :=
  (l.filter (fun a => lo a ≤ k)).getLast?

/-- The probe: the last item starting at or before `k`, kept only when it
covers `k`. -/
def probe (l : List α) (k : K) : Option α :=
  (lastAtOrBefore lo l k).filter (fun a => Covers lo hi k a)

/-- Where the overlap scan for `[s, e)` starts: at the item covering `s` if
there is one, and at `s` itself otherwise. -/
def pivot (l : List α) (s : K) : K :=
  match probe lo hi l s with
  | some f => lo f
  | none => s

variable {lo hi}

/-! ## Order facts inside a chain -/

section Order

variable {l : List α}

/-- In a chain of proper items the starts strictly increase. -/
theorem Chain.lo_lt (hc : Chain lo hi l) (hp : ∀ a ∈ l, Proper lo hi a) :
    l.Pairwise (fun a b => lo a < lo b) := by
  refine hc.imp_of_mem (fun {a b} ha _ hab => ?_)
  have h : (lo a : WithTop K) < lo b := lt_of_lt_of_le (hp a ha) hab
  exact WithTop.coe_lt_coe.mp h

/-- Two items of a chain are equal or one ends before the other starts. -/
theorem Chain.eq_or_sep (hc : Chain lo hi l) {a b : α} (ha : a ∈ l) (hb : b ∈ l) :
    a = b ∨ hi a ≤ lo b ∨ hi b ≤ lo a := by
  let R : α → α → Prop := fun x y => x = y ∨ hi x ≤ lo y ∨ hi y ≤ lo x
  have hsymm : Std.Symm R := ⟨fun x y h => by
    rcases h with h | h | h
    · exact .inl h.symm
    · exact .inr (.inr h)
    · exact .inr (.inl h)⟩
  have hR : l.Pairwise R := hc.imp (fun h => .inr (.inl h))
  exact hR.forall_of_forall (fun x _ => .inl rfl) ha hb

/-- At most one item of a chain covers a key. -/
theorem covers_unique (hc : Chain lo hi l) {a b : α} {k : K} (ha : a ∈ l) (hb : b ∈ l)
    (hka : Covers lo hi k a) (hkb : Covers lo hi k b) : a = b := by
  rcases hc.eq_or_sep ha hb with h | h | h
  · exact h
  · have : (k : WithTop K) < k :=
      lt_of_lt_of_le hka.2 (le_trans h (WithTop.coe_le_coe.mpr hkb.1))
    exact absurd this (lt_irrefl _)
  · have : (k : WithTop K) < k :=
      lt_of_lt_of_le hkb.2 (le_trans h (WithTop.coe_le_coe.mpr hka.1))
    exact absurd this (lt_irrefl _)

end Order

/-! ## The probe -/

section Probe

variable {l : List α} {k : K}

/-- An item covering `k` is the last one starting at or before `k`: every later
item starts at or after its end. -/
theorem lastAtOrBefore_of_covers (hc : Chain lo hi l) {a : α} (ha : a ∈ l)
    (hk : Covers lo hi k a) : lastAtOrBefore lo l k = some a := by
  obtain ⟨p, q, rfl⟩ := List.mem_iff_append.mp ha
  have hq : ∀ b ∈ q, hi a ≤ lo b := by
    have h := (List.pairwise_append.mp hc).2.1
    exact (List.pairwise_cons.mp h).1
  have hqnil : q.filter (fun b => lo b ≤ k) = [] := by
    refine List.filter_eq_nil_iff.mpr (fun b hb hle => ?_)
    have hlt : (k : WithTop K) < lo b := lt_of_lt_of_le hk.2 (hq b hb)
    exact absurd (of_decide_eq_true hle) (not_le.mpr (WithTop.coe_lt_coe.mp hlt))
  have hak : decide (lo a ≤ k) = true := decide_eq_true hk.1
  simp only [lastAtOrBefore, List.filter_append, List.filter_cons, hak, if_true, hqnil]
  exact List.getLast?_concat

/-- The probe returns `a` exactly when `a` is the item covering `k`. -/
theorem probe_eq_some_iff (hc : Chain lo hi l) {a : α} :
    probe lo hi l k = some a ↔ a ∈ l ∧ Covers lo hi k a := by
  constructor
  · intro h
    obtain ⟨hlast, hcov⟩ := Option.filter_eq_some_iff.mp h
    have hmem : a ∈ l.filter (fun b => lo b ≤ k) := List.mem_of_getLast? hlast
    exact ⟨(List.mem_filter.mp hmem).1, of_decide_eq_true hcov⟩
  · rintro ⟨ha, hk⟩
    rw [probe, lastAtOrBefore_of_covers hc ha hk]
    exact Option.filter_eq_some_iff.mpr ⟨rfl, decide_eq_true hk⟩

/-- The probe finds nothing exactly when no item covers `k`. -/
theorem probe_eq_none_iff (hc : Chain lo hi l) :
    probe lo hi l k = none ↔ ∀ a ∈ l, ¬ Covers lo hi k a := by
  constructor
  · intro h a ha hk
    have := (probe_eq_some_iff hc).mpr ⟨ha, hk⟩
    simp [h] at this
  · intro h
    cases hp : probe lo hi l k with
    | none => rfl
    | some a =>
        obtain ⟨ha, hk⟩ := (probe_eq_some_iff hc).mp hp
        exact absurd hk (h a ha)

end Probe

/-! ## The forward overlap scan -/

section Scan

/-- On a list where `P` is closed under going left, `takeWhile P` keeps
exactly the items satisfying `P`. -/
theorem takeWhile_eq_filter {P : α → Bool} {l : List α}
    (hmono : l.Pairwise (fun x y => P y = true → P x = true)) :
    l.takeWhile P = l.filter P := by
  induction l with
  | nil => rfl
  | cons a l ih =>
      obtain ⟨hhead, htail⟩ := List.pairwise_cons.mp hmono
      by_cases ha : P a = true
      · rw [List.takeWhile_cons_of_pos ha, List.filter_cons_of_pos ha, ih htail]
      · have hnone : l.filter P = [] :=
          List.filter_eq_nil_iff.mpr (fun b hb hPb => ha (hhead b hb hPb))
        rw [List.takeWhile_cons_of_neg ha, List.filter_cons_of_neg ha, hnone]

/-- On a list where `P` is closed under going left, `dropWhile P` keeps
exactly the items failing `P`. -/
theorem dropWhile_eq_filter {P : α → Bool} {l : List α}
    (hmono : l.Pairwise (fun x y => P y = true → P x = true)) :
    l.dropWhile P = l.filter (fun a => !P a) := by
  induction l with
  | nil => rfl
  | cons a l ih =>
      obtain ⟨hhead, htail⟩ := List.pairwise_cons.mp hmono
      by_cases ha : P a = true
      · rw [List.dropWhile_cons_of_pos ha, List.filter_cons_of_neg (by simpa using ha), ih htail]
      · have hall : l.filter (fun a => !P a) = l :=
          List.filter_eq_self.mpr (fun b hb => by simpa using fun hPb => ha (hhead b hb hPb))
        rw [List.dropWhile_cons_of_neg ha, List.filter_cons_of_pos (by simpa using ha), hall]

variable {l : List α} {s : K} {e : WithTop K}

/-- Starting at the pivot is the same as starting where the ranges begin to
reach past `s`. -/
theorem pivot_le_iff (hc : Chain lo hi l) (hp : ∀ a ∈ l, Proper lo hi a) {a : α}
    (ha : a ∈ l) : pivot lo hi l s ≤ lo a ↔ (s : WithTop K) < hi a := by
  unfold pivot
  cases hprobe : probe lo hi l s with
  | some f =>
      obtain ⟨hf, hfs⟩ := (probe_eq_some_iff hc).mp hprobe
      rcases hc.eq_or_sep ha hf with rfl | hsep | hsep
      · exact ⟨fun _ => hfs.2, fun _ => le_rfl⟩
      · -- `a` ends before `f` starts, so it ends at or before `s`
        have hlt : lo a < lo f := WithTop.coe_lt_coe.mp (lt_of_lt_of_le (hp a ha) hsep)
        have hend : hi a ≤ s := le_trans hsep (WithTop.coe_le_coe.mpr hfs.1)
        exact ⟨fun h => absurd h (not_le.mpr hlt), fun h => absurd h (not_lt.mpr hend)⟩
      · -- `a` starts after `f` ends, hence after `s`
        have hlt : (lo f : WithTop K) < lo a := lt_of_lt_of_le (hp f hf) hsep
        exact ⟨fun _ => lt_of_lt_of_le (lt_of_lt_of_le hfs.2 hsep) (le_of_lt (hp a ha)),
          fun _ => le_of_lt (WithTop.coe_lt_coe.mp hlt)⟩
  | none =>
      have hnot := (probe_eq_none_iff hc).mp hprobe a ha
      constructor
      · intro h
        exact lt_of_le_of_lt (WithTop.coe_le_coe.mpr h) (hp a ha)
      · intro h
        by_contra hlt
        exact hnot ⟨le_of_lt (not_le.mp hlt), h⟩

/-- The forward scan from the pivot, stopped at the first item starting at or
after `e`, collects exactly the items meeting `[s, e)`, in chain order. -/
theorem scan_eq_filter_meets (hc : Chain lo hi l) (hp : ∀ a ∈ l, Proper lo hi a) :
    (l.filter (fun a => pivot lo hi l s ≤ lo a)).takeWhile
        (fun a => (lo a : WithTop K) < e) =
      l.filter (fun a => Meets lo hi s e a) := by
  have hsorted := hc.lo_lt hp
  have hmono : (l.filter (fun a => pivot lo hi l s ≤ lo a)).Pairwise
      (fun x y => decide ((lo y : WithTop K) < e) = true →
        decide ((lo x : WithTop K) < e) = true) := by
    refine (hsorted.filter _).imp (fun hxy hy => ?_)
    exact decide_eq_true
      (lt_trans (WithTop.coe_lt_coe.mpr hxy) (of_decide_eq_true hy))
  rw [takeWhile_eq_filter hmono, List.filter_filter]
  refine List.filter_congr (fun a ha => ?_)
  have hiff : ((lo a : WithTop K) < e ∧ pivot lo hi l s ≤ lo a) ↔ Meets lo hi s e a := by
    rw [pivot_le_iff hc hp ha]
    rfl
  rw [Bool.eq_iff_iff, Bool.and_eq_true, decide_eq_true_eq, decide_eq_true_eq,
    decide_eq_true_eq]
  exact hiff

end Scan

/-! ## Paging through a chain

A scan that reads a chain in pages from a key, restarting each page at the
end of the last item read, reads the items from the key on, each once: the
items starting at or after a key are a suffix of the chain, and those
starting at or after the end of an item are the ones after it. -/

section Pages

variable {l : List α}

/-- The items starting at or after `k` are those left once the ones starting
before `k` are dropped. -/
theorem filter_le_lo_eq_dropWhile (hc : Chain lo hi l) (hp : ∀ a ∈ l, Proper lo hi a) (k : K) :
    l.filter (fun a => decide (k ≤ lo a)) = l.dropWhile (fun a => decide (lo a < k)) := by
  have hmono : l.Pairwise (fun x y => decide (lo y < k) = true → decide (lo x < k) = true) :=
    (hc.lo_lt hp).imp fun hxy hy => decide_eq_true ((le_of_lt hxy).trans_lt (of_decide_eq_true hy))
  rw [dropWhile_eq_filter hmono]
  refine List.filter_congr fun a _ => ?_
  rw [← decide_not]
  exact decide_eq_decide.mpr not_lt.symm

/-- The items starting at or after the end `e` of an item are the items after it. -/
theorem filter_hi_le_lo {A B : List α} {a : α} {e : K} (hc : Chain lo hi (A ++ a :: B))
    (hp : ∀ x ∈ A ++ a :: B, Proper lo hi x) (he : hi a = e) :
    (A ++ a :: B).filter (fun x => decide (e ≤ lo x)) = B := by
  obtain ⟨-, hcB, hcross⟩ := List.pairwise_append.mp hc
  obtain ⟨-, -, hltcross⟩ := List.pairwise_append.mp (hc.lo_lt hp)
  have hae : lo a < e := by
    have := hp a (List.mem_append_right A List.mem_cons_self)
    rwa [Proper, he, WithTop.coe_lt_coe] at this
  -- the items before `a` start before it, the items after it start after its end
  have hA : A.filter (fun x => decide (e ≤ lo x)) = [] :=
    List.filter_eq_nil_iff.mpr fun x hx hle =>
      absurd (of_decide_eq_true hle) (not_le.mpr ((hltcross x hx a List.mem_cons_self).trans hae))
  have hB : B.filter (fun x => decide (e ≤ lo x)) = B :=
    List.filter_eq_self.mpr fun y hy => by
      have := (List.pairwise_cons.mp hcB).1 y hy
      rw [he, WithTop.coe_le_coe] at this
      exact decide_eq_true this
  rw [List.filter_append, hA, List.filter_cons_of_neg (by simpa using hae), hB, List.nil_append]

end Pages

/-! ## Extremal items of a sorted list

A list whose starts strictly increase has its least matching item first and
its greatest matching item last; this is how a neighbour search reads off the
nearest item on either side of a key. -/

section Extremal

variable {l : List α} {P : α → Bool}

/-- The first item matching `P` has the least start among the matches. -/
theorem head?_filter_eq_some_iff {β : Type*} [LinearOrder β] {f : α → β}
    (hs : l.Pairwise (fun a b => f a < f b)) {a : α} :
    (l.filter P).head? = some a ↔ a ∈ l ∧ P a = true ∧ ∀ b ∈ l, P b = true → f a ≤ f b := by
  induction l with
  | nil => simp
  | cons c l ih =>
      obtain ⟨hhead, htail⟩ := List.pairwise_cons.mp hs
      by_cases hc : P c = true
      · rw [List.filter_cons_of_pos hc, List.head?_cons, Option.some.injEq]
        constructor
        · rintro rfl
          refine ⟨List.mem_cons_self, hc, fun b hb _ => ?_⟩
          rcases List.mem_cons.mp hb with rfl | hb
          · exact le_rfl
          · exact le_of_lt (hhead b hb)
        · rintro ⟨ha, _, hmin⟩
          rcases List.mem_cons.mp ha with rfl | ha
          · rfl
          · exact absurd (hmin c List.mem_cons_self hc) (not_le.mpr (hhead a ha))
      · rw [List.filter_cons_of_neg hc, ih htail]
        constructor
        · rintro ⟨ha, hPa, hmin⟩
          refine ⟨List.mem_cons_of_mem _ ha, hPa, fun b hb hPb => ?_⟩
          rcases List.mem_cons.mp hb with rfl | hb
          · exact absurd hPb hc
          · exact hmin b hb hPb
        · rintro ⟨ha, hPa, hmin⟩
          rcases List.mem_cons.mp ha with rfl | ha
          · exact absurd hPa hc
          · exact ⟨ha, hPa, fun b hb hPb => hmin b (List.mem_cons_of_mem _ hb) hPb⟩

/-- The last item matching `P` has the greatest start among the matches. -/
theorem getLast?_filter_eq_some_iff {β : Type*} [LinearOrder β] {f : α → β}
    (hs : l.Pairwise (fun a b => f a < f b)) {a : α} :
    (l.filter P).getLast? = some a ↔ a ∈ l ∧ P a = true ∧ ∀ b ∈ l, P b = true → f b ≤ f a := by
  -- read the list backwards, where the order flips
  have hrev : l.reverse.Pairwise (fun a b => OrderDual.toDual (f a) < OrderDual.toDual (f b)) :=
    List.pairwise_reverse.mpr (hs.imp id)
  rw [← List.head?_reverse, ← List.filter_reverse, head?_filter_eq_some_iff hrev]
  simp only [List.mem_reverse, OrderDual.toDual_le_toDual]

end Extremal

end PlacementDriver.Verified.KeyRange
