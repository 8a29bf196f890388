import Mathlib

/-!
# Go's `strings.TrimSpace`, `strconv.Atoi` and zero-padded `%d`

A Go string is read here as its list of characters. `TrimSpace` drops the
runes `unicode.IsSpace` accepts from both ends; `Atoi` reads an optional sign
and decimal digits, in the range of a 64-bit `int`, and `Itoa` writes a
value back in that form. `fmt`'s `%0*d` pads the decimal digits with zeros
on the left.

The lemmas are what a parser built on them needs: padding a text with spaces
and tabs does not change what `TrimSpace` returns, and `Atoi` reads back
what `Itoa` writes, at every value.

## Main results

* `trimSpace_blank_append`: blanks on either side of a text are trimmed away.
* `trimSpace_of_forall`: a text with no space in it is its own trim.
* `span_append_of_forall`: a run followed by what ends it splits there.
* `atoi_itoa`: `Atoi(Itoa(v)) = v` for every 64-bit `v`.
* `zeroPadded_lt_zeroPadded_iff`: numbers of at most `width` digits, padded
  to `width`, compare as texts as they compare as numbers.
-/

namespace PlacementDriver.Go

namespace Strings

/-- `unicode.IsSpace`: the Latin-1 spaces, then the other runes of
Unicode's `White_Space`. -/
def isSpace (c : Char) : Bool :=
  c = '\t' || c = '\n' || c = '\x0B' || c = '\x0C' || c = '\r' || c = ' ' || c = '\x85' || c = '\xA0' ||
    c = '\u1680' || ('\u2000' ≤ c && c ≤ '\u200A') || c = '\u2028' || c = '\u2029' || c = '\u202F' ||
    c = '\u205F' || c = '\u3000'

/-- `strings.TrimSpace`, which is `TrimFunc(s, unicode.IsSpace)`: the left
end, then the right. -/
def trimSpace (s : List Char) : List Char := (s.dropWhile isSpace).rdropWhile isSpace

/-- Spaces and tabs, the blanks a writer puts between tokens. -/
def IsBlank (s : List Char) : Prop := ∀ c ∈ s, c = ' ' ∨ c = '\t'

theorem IsBlank.isSpace {s : List Char} (h : IsBlank s) : ∀ c ∈ s, isSpace c = true := by
  intro c hc
  rcases h c hc with rfl | rfl <;> rfl

/-- Every space is a control character or the space itself, or lies outside
ASCII. -/
theorem toNat_of_isSpace {c : Char} (h : isSpace c = true) : c.toNat ≤ 32 ∨ 133 ≤ c.toNat := by
  simp only [isSpace, Bool.or_eq_true, Bool.and_eq_true, decide_eq_true_eq] at h
  rcases h with ((((((((((((((h | h) | h) | h) | h) | h) | h) | h) | h) | ⟨h, -⟩) | h) | h) | h) | h) | h)
  all_goals first
    | (subst h; decide)
    | (have hle : '\u2000'.val.toNat ≤ c.val.toNat := h
       have : '\u2000'.val.toNat = 8192 := rfl
       have : c.toNat = c.val.toNat := rfl
       omega)

theorem IsBlank.append {s t : List Char} (hs : IsBlank s) (ht : IsBlank t) : IsBlank (s ++ t) := by
  intro c hc
  rcases List.mem_append.mp hc with hc | hc
  · exact hs c hc
  · exact ht c hc

theorem isBlank_nil : IsBlank [] := nofun

theorem rdropWhile_append_of_pos {p : Char → Bool} {s q : List Char} (hq : ∀ c ∈ q, p c = true) :
    (s ++ q).rdropWhile p = s.rdropWhile p := by
  rw [List.rdropWhile, List.reverse_append,
    List.dropWhile_append_of_pos (fun c hc => hq c (List.mem_reverse.mp hc)), List.rdropWhile]

/-- Blanks on either side of a text are trimmed away with the text's own
spaces. -/
theorem trimSpace_blank_append {p s q : List Char} (hp : IsBlank p) (hq : IsBlank q) :
    trimSpace (p ++ s ++ q) = trimSpace s := by
  rw [trimSpace, List.append_assoc, List.dropWhile_append_of_pos hp.isSpace, trimSpace]
  rcases List.eq_nil_or_concat (s.dropWhile isSpace) with hnil | ⟨l, x, hlx⟩
  · -- all of `s` is space, so what is left after it is `q`, all space too
    rw [List.dropWhile_append, hnil, List.isEmpty_nil, if_pos rfl, List.dropWhile_eq_nil_iff.mpr hq.isSpace]
  · have hne : (s.dropWhile isSpace).isEmpty = false := by simp [hlx]
    rw [List.dropWhile_append, hne, if_neg Bool.false_ne_true, rdropWhile_append_of_pos hq.isSpace]

/-! ## Runs and joins -/

section Lists

variable {α : Type}

/-- A run of what `p` accepts, followed by something it rejects, is cut at
the end of the run. -/
theorem span_append_of_forall {p : α → Bool} {xs ys : List α} (hxs : ∀ x ∈ xs, p x = true)
    (hys : ∀ y ∈ ys.head?, p y = false) : (xs ++ ys).span p = (xs, ys) := by
  have hstop : ys.takeWhile p = [] ∧ ys.dropWhile p = ys := by
    cases ys with
    | nil => exact ⟨rfl, rfl⟩
    | cons y ys =>
      have hy := hys y rfl
      exact ⟨by simp [hy], by simp [hy]⟩
  rw [List.span_eq_takeWhile_dropWhile, List.takeWhile_append_of_pos hxs, List.dropWhile_append_of_pos hxs,
    hstop.1, hstop.2, List.append_nil]

theorem dropWhile_of_head {p : α → Bool} {ys : List α} (hys : ∀ y ∈ ys.head?, p y = false) :
    ys.dropWhile p = ys := by
  simpa using @span_append_of_forall α p [] ys (fun _ h => nomatch h) hys

theorem rdropWhile_of_forall {p : α → Bool} {s : List α} (hs : ∀ x ∈ s, p x = false) : s.rdropWhile p = s := by
  rw [List.rdropWhile_eq_self_iff]
  intro hl
  simp [hs _ (List.getLast_mem hl)]

theorem rdropWhile_append_of_ne_nil {p : α → Bool} {xs ys : List α} (h : ys.rdropWhile p ≠ []) :
    (xs ++ ys).rdropWhile p = xs ++ ys.rdropWhile p := by
  have hne : (ys.reverse.dropWhile p).isEmpty = false := by
    rw [List.isEmpty_eq_false_iff]
    exact fun h' => h (by rw [List.rdropWhile, h', List.reverse_nil])
  rw [List.rdropWhile, List.reverse_append, List.dropWhile_append, hne, if_neg Bool.false_ne_true,
    List.reverse_append, List.reverse_reverse, List.rdropWhile]

/-- The first part of a join stands at its front. -/
theorem intercalate_cons_eq_append (sep t : List α) (ts : List (List α)) :
    sep.intercalate (t :: ts) = t ++ sep.intercalate ([] :: ts) := by
  cases ts with
  | nil => simp
  | cons u us => simp [List.intercalate_cons_cons]

theorem forall_mem_intercalate {p : α → Prop} {sep : List α} {ts : List (List α)} (hsep : ∀ x ∈ sep, p x)
    (hts : ∀ t ∈ ts, ∀ x ∈ t, p x) : ∀ x ∈ sep.intercalate ts, p x := by
  induction ts with
  | nil => exact fun _ h => nomatch h
  | cons t ts ih =>
    have ht := hts t List.mem_cons_self
    have hrest := ih fun u hu => hts u (List.mem_cons_of_mem t hu)
    cases ts with
    | nil => simpa using ht
    | cons u us =>
      intro x hx
      rw [List.intercalate_cons_cons, List.mem_append, List.mem_append] at hx
      rcases hx with (hx | hx) | hx
      · exact ht x hx
      · exact hsep x hx
      · exact hrest x hx

/-- A common front does not change how two lists compare. -/
theorem append_lt_append_left_iff [LinearOrder α] (p : List α) {l₁ l₂ : List α} :
    p ++ l₁ < p ++ l₂ ↔ l₁ < l₂ := by
  induction p with
  | nil => rfl
  | cons a p ih => rw [List.cons_append, List.cons_append, List.cons_lt_cons_self, ih]

/-- Two lists of one length compare as their first difference does, whatever
follows them. -/
theorem append_lt_append_of_lt [LT α] {l₁ l₂ : List α} (h : l₁ < l₂)
    (hlen : l₁.length = l₂.length) (t₁ t₂ : List α) : l₁ ++ t₁ < l₂ ++ t₂ := by
  induction l₁ generalizing l₂ with
  | nil =>
      cases l₂ with
      | nil => exact absurd h (List.not_lt_nil _)
      | cons b l₂ => simp at hlen
  | cons a l₁ ih =>
      cases l₂ with
      | nil => exact absurd h (List.not_lt_nil _)
      | cons b l₂ =>
          rw [List.cons_append, List.cons_append, List.cons_lt_cons_iff]
          rcases List.cons_lt_cons_iff.mp h with hab | ⟨rfl, hl⟩
          · exact .inl hab
          · exact .inr ⟨rfl, ih hl (Nat.succ.inj hlen)⟩

end Lists

/-- A text with no space in it is its own trim. -/
theorem trimSpace_of_forall {s : List Char} (hs : ∀ c ∈ s, isSpace c = false) : trimSpace s = s := by
  rw [trimSpace, dropWhile_of_head (fun c hc => hs c (List.mem_of_mem_head? hc)), rdropWhile_of_forall hs]

end Strings

namespace Strconv

/-- The sign `ParseInt` takes off: a leading `-` makes the value negative,
a leading `+` is dropped. -/
def splitSign : List Char → Bool × List Char
  | '-' :: ds => (true, ds)
  | '+' :: ds => (false, ds)
  | ds => (false, ds)

/-- Decimal digits as `ParseUint` reads them with base 10: at least one, and
nothing but `0` to `9`. -/
def decimal (ds : List Char) : Option Nat :=
  if !ds.isEmpty && ds.all Char.isDigit then some (Nat.ofDigitChars 10 ds 0) else none

/-- `strconv.Atoi` on a 64-bit platform: `none` is its syntax or range
error. -/
def atoi (s : List Char) : Option Int64 :=
  match decimal (splitSign s).2 with
  | none => none
  | some n =>
    if (splitSign s).1 then (if n ≤ 2 ^ 63 then some (.ofInt (-n)) else none)
    else if n < 2 ^ 63 then some (.ofInt n) else none

/-- `strconv.Itoa`. -/
def itoa (v : Int64) : List Char :=
  if v.toInt < 0 then '-' :: Nat.toDigits 10 v.toInt.natAbs else Nat.toDigits 10 v.toInt.toNat

theorem decimal_toDigits (n : Nat) : decimal (Nat.toDigits 10 n) = some n := by
  have hdigits : (Nat.toDigits 10 n).all Char.isDigit = true :=
    List.all_eq_true.mpr fun _ hc => Nat.isDigit_of_mem_toDigits (by decide) (by decide) hc
  have hne : (Nat.toDigits 10 n).isEmpty = false := List.isEmpty_eq_false_iff.mpr Nat.toDigits_ne_nil
  rw [decimal, hne, hdigits, Nat.ofDigitChars_ten_toDigits]
  rfl

/-- A digit is no sign. -/
theorem splitSign_of_isDigit {c : Char} (hc : c.isDigit = true) (cs : List Char) :
    splitSign (c :: cs) = (false, c :: cs) := by
  have hminus : c ≠ '-' := by rintro rfl; exact absurd hc (by decide)
  have hplus : c ≠ '+' := by rintro rfl; exact absurd hc (by decide)
  unfold splitSign
  split
  · next h => exact absurd (List.cons.inj h).1 hminus
  · next h => exact absurd (List.cons.inj h).1 hplus
  · rfl

theorem splitSign_toDigits (n : Nat) : splitSign (Nat.toDigits 10 n) = (false, Nat.toDigits 10 n) := by
  obtain ⟨c, cs, hcs⟩ := List.exists_cons_of_ne_nil (Nat.toDigits_ne_nil (n := n) (b := 10))
  rw [hcs, splitSign_of_isDigit (Nat.isDigit_of_mem_toDigits (by decide) (by decide) (hcs ▸ List.mem_cons_self))]

theorem toNat_of_isDigit {c : Char} (h : c.isDigit = true) : 48 ≤ c.toNat ∧ c.toNat ≤ 57 := by
  simp only [Char.isDigit, Bool.and_eq_true, decide_eq_true_eq, UInt32.le_iff_toNat_le, ge_iff_le] at h
  have hval : c.toNat = c.val.toNat := rfl
  have h0 : '0'.val.toNat = 48 := rfl
  have h9 : '9'.val.toNat = 57 := rfl
  omega

/-- `Itoa` writes a minus sign and digits. -/
theorem mem_itoa {v : Int64} {c : Char} (hc : c ∈ itoa v) : c = '-' ∨ c.isDigit = true := by
  unfold itoa at hc
  split at hc
  · rcases List.mem_cons.mp hc with rfl | hc
    · exact .inl rfl
    · exact .inr (Nat.isDigit_of_mem_toDigits (by decide) (by decide) hc)
  · exact .inr (Nat.isDigit_of_mem_toDigits (by decide) (by decide) hc)

theorem itoa_ne_nil (v : Int64) : itoa v ≠ [] := by
  unfold itoa
  split
  · exact List.cons_ne_nil _ _
  · exact Nat.toDigits_ne_nil

/-- `Atoi` reads back what `Itoa` writes, at every value of a 64-bit `int`,
`math.MinInt64` included. -/
theorem atoi_itoa (v : Int64) : atoi (itoa v) = some v := by
  have hlo := Int64.le_toInt v
  have hhi := Int64.toInt_lt v
  unfold itoa
  split
  · next hneg =>
    have hint : -((v.toInt.natAbs : Nat) : Int) = v.toInt := by omega
    simp only [atoi, splitSign, decimal_toDigits, if_true, if_pos (show v.toInt.natAbs ≤ 2 ^ 63 by omega), hint,
      Int64.ofInt_toInt]
  · next hnn =>
    have hint : ((v.toInt.toNat : Nat) : Int) = v.toInt := by omega
    simp only [atoi, splitSign_toDigits, decimal_toDigits, Bool.false_eq_true, if_false,
      if_pos (show v.toInt.toNat < 2 ^ 63 by omega), hint, Int64.ofInt_toInt]

end Strconv

namespace Fmt

/-- `fmt.Sprintf("%0*d", width, n)` for `n ≥ 0`: the decimal digits of `n`,
padded on the left with zeros to `width` characters. -/
def zeroPadded (width n : Nat) : List Char := List.leftpad width '0' (Nat.toDigits 10 n)

/-- The last `width` decimal digits of `n`, the most significant first. -/
def fixedDigits : Nat → Nat → List Char
  | 0, _ => []
  | width + 1, n => fixedDigits width (n / 10) ++ [Nat.digitChar (n % 10)]

@[simp] theorem length_fixedDigits (width n : Nat) : (fixedDigits width n).length = width := by
  induction width generalizing n with
  | zero => rfl
  | succ width ih => simp [fixedDigits, ih]

theorem fixedDigits_zero (width : Nat) : fixedDigits width 0 = List.replicate width '0' := by
  induction width with
  | zero => rfl
  | succ width ih =>
      rw [fixedDigits, ih, List.replicate_succ']
      rfl

/-- A number of at most `width` digits, padded to `width`, is its last
`width` digits. -/
theorem zeroPadded_eq_fixedDigits {width n : Nat} (hw : 0 < width) (hn : n < 10 ^ width) :
    zeroPadded width n = fixedDigits width n := by
  induction width generalizing n with
  | zero => omega
  | succ width ih =>
      by_cases hsmall : n < 10
      · -- one digit: the rest of the width is zeros
        rw [zeroPadded, Nat.toDigits_of_lt_base hsmall, fixedDigits, Nat.div_eq_of_lt hsmall,
          Nat.mod_eq_of_lt hsmall, fixedDigits_zero]
        simp [List.leftpad]
      · -- more digits: the last is `n % 10` and the others are those of `n / 10`
        have hwidth : 0 < width := by
          rcases Nat.eq_zero_or_pos width with rfl | h
          · simp at hn
            omega
          · exact h
        have hdiv : n / 10 < 10 ^ width := by
          rw [Nat.div_lt_iff_lt_mul (by norm_num), ← Nat.pow_succ]
          exact hn
        rw [fixedDigits, ← ih hwidth hdiv, zeroPadded, zeroPadded,
          Nat.toDigits_of_base_le (by norm_num) (by omega)]
        simp only [List.leftpad, List.length_append, List.length_singleton, List.append_assoc]
        congr 2
        omega

theorem digitChar_lt_digitChar : ∀ a < 10, ∀ b < 10, a < b → Nat.digitChar a < Nat.digitChar b := by
  decide

theorem fixedDigits_lt_fixedDigits {width a b : Nat} (hab : a < b) (hb : b < 10 ^ width) :
    fixedDigits width a < fixedDigits width b := by
  induction width generalizing a b with
  | zero =>
      simp at hb
      omega
  | succ width ih =>
      rw [fixedDigits, fixedDigits]
      have hdiv : b / 10 < 10 ^ width := by
        rw [Nat.div_lt_iff_lt_mul (by norm_num), ← Nat.pow_succ]
        exact hb
      rcases Nat.lt_or_ge (a / 10) (b / 10) with hq | hq
      · -- the digits above the last already differ
        exact Strings.append_lt_append_of_lt (ih hq hdiv) (by simp) _ _
      · -- the same digits above, and a smaller last digit
        have hq' : a / 10 = b / 10 := le_antisymm (Nat.div_le_div_right hab.le) hq
        rw [hq']
        apply List.append_left_lt
        rw [List.cons_lt_cons_iff]
        exact .inl (digitChar_lt_digitChar _ (Nat.mod_lt _ (by norm_num)) _
          (Nat.mod_lt _ (by norm_num)) (by omega))

/-- Zero padding to a fixed width makes the lexicographic order of the texts
the order of the numbers. -/
theorem zeroPadded_lt_zeroPadded_iff {width a b : Nat} (hw : 0 < width) (ha : a < 10 ^ width)
    (hb : b < 10 ^ width) : zeroPadded width a < zeroPadded width b ↔ a < b := by
  rw [zeroPadded_eq_fixedDigits hw ha, zeroPadded_eq_fixedDigits hw hb]
  constructor
  · intro h
    by_contra hba
    rcases Nat.lt_or_eq_of_le (Nat.not_lt.mp hba) with hlt | rfl
    · exact lt_asymm h (fixedDigits_lt_fixedDigits hlt ha)
    · exact lt_irrefl _ h
  · intro h
    exact fixedDigits_lt_fixedDigits h hb

end Fmt

end PlacementDriver.Go
