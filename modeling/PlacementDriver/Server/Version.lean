import Mathlib

/-!
# Versions: `ParseVersion`, `IsCompatible` and the order of go-semver

`server/version.go` reads store versions with go-semver. `Version` is the
record of `semver.Version`. `v.Compare(w)` compares `(Major, Minor, Patch)`
first, as `recursiveCompare` does, and only when they agree the pre-release
tags. The server's functions take the parser `semver.NewVersion` and the
comparison of pre-release tags as a `Semver`; `goSemver` is the vendored
go-semver, written out in `GoSemver`. Its pre-release order is antisymmetric
but not transitive: identifiers that are both integers compare as integers,
others as strings, and the two orders disagree.

## Main results

* `Version.minorLE_of_lessThan`, `Version.patchLE_of_not_lessThan`: `LessThan`
  follows `(Major, Minor, Patch)`, whatever the pre-release order.
* `minorLE_of_isCompatible`: a version compatible with the cluster version has
  a `(Major, Minor)` at least the cluster version's.
* `goSemver_antisymm`, `Semver.Antisymm.not_lessThan_of_lessThan`: go-semver's
  `LessThan` is asymmetric.
* `goSemver_preRelease_cycle`: `9 < 10 < 1a < 9` among pre-release tags.
-/

namespace PlacementDriver.Server

/-- `semver.Version`. -/
structure Version where
  major : Int
  minor : Int
  patch : Int
  preRelease : String
  metadata : String
deriving DecidableEq, Repr

namespace Version

/-- `Slice()`: the parts compared first. -/
def slice (v : Version) : List Int := [v.major, v.minor, v.patch]

/-- The `(Major, Minor)` of `v` is at most that of `w`, lexicographically. -/
def MinorLE (v w : Version) : Prop := v.major < w.major ∨ (v.major = w.major ∧ v.minor ≤ w.minor)

instance (v w : Version) : Decidable (v.MinorLE w) := inferInstanceAs (Decidable (_ ∨ _))

/-- The `(Major, Minor, Patch)` of `v` is below that of `w`, lexicographically. -/
def PatchLT (v w : Version) : Prop :=
  v.major < w.major ∨ (v.major = w.major ∧ (v.minor < w.minor ∨ (v.minor = w.minor ∧ v.patch < w.patch)))

/-- `v` and `w` agree on `(Major, Minor, Patch)`. -/
def SameSlice (v w : Version) : Prop := v.major = w.major ∧ v.minor = w.minor ∧ v.patch = w.patch

/-- The `(Major, Minor, Patch)` of `v` is at most that of `w`. -/
def PatchLE (v w : Version) : Prop := v.PatchLT w ∨ v.SameSlice w

variable {u v w : Version}

theorem PatchLE.trans (h₁ : u.PatchLE v) (h₂ : v.PatchLE w) : u.PatchLE w := by
  unfold PatchLE PatchLT SameSlice at *
  omega

theorem PatchLE.minorLE (h : v.PatchLE w) : v.MinorLE w := by
  unfold PatchLE PatchLT SameSlice MinorLE at *
  omega

theorem MinorLE.trans (h₁ : u.MinorLE v) (h₂ : v.MinorLE w) : u.MinorLE w := by
  unfold MinorLE at *
  omega

theorem patchLE_refl (v : Version) : v.PatchLE v := .inr ⟨rfl, rfl, rfl⟩

end Version

/-- `recursiveCompare`; the two slices always have one length, and Go would
index out of range on a shorter second one. -/
def recursiveCompare : List Int → List Int → Int
  | a :: as, b :: bs => if a > b then 1 else if a < b then -1 else recursiveCompare as bs
  | _, _ => 0

open Version

theorem recursiveCompare_slice (v w : Version) :
    recursiveCompare v.slice w.slice =
      if v.major > w.major then 1 else if v.major < w.major then -1
      else if v.minor > w.minor then 1 else if v.minor < w.minor then -1
      else if v.patch > w.patch then 1 else if v.patch < w.patch then -1 else 0 := rfl

theorem recursiveCompare_slice_neg {v w : Version} : recursiveCompare v.slice w.slice < 0 ↔ v.PatchLT w := by
  rw [recursiveCompare_slice, PatchLT]
  split_ifs <;> omega

theorem recursiveCompare_slice_eq_zero {v w : Version} : recursiveCompare v.slice w.slice = 0 ↔ v.SameSlice w := by
  rw [recursiveCompare_slice, SameSlice]
  constructor
  · intro h
    split_ifs at h <;> omega
  · intro h
    split_ifs <;> omega

theorem recursiveCompare_slice_antisymm (v w : Version) :
    recursiveCompare v.slice w.slice = -recursiveCompare w.slice v.slice := by
  rw [recursiveCompare_slice, recursiveCompare_slice]
  split_ifs <;> omega

/-- What PD calls of go-semver beyond the `Version` record. -/
structure Semver where
  /-- `semver.NewVersion`, `none` on a parse error -/
  newVersion : String → Option Version
  /-- `preReleaseCompare`, which reads only the two `PreRelease` tags -/
  preReleaseCompare : String → String → Int

namespace Semver

variable (sv : Semver)

/-- `v.Compare(w)`. -/
def compare (v w : Version) : Int :=
  let cmp := recursiveCompare v.slice w.slice
  if cmp ≠ 0 then cmp else sv.preReleaseCompare v.preRelease w.preRelease

/-- `v.LessThan(w)`. -/
def lessThan (v w : Version) : Bool := decide (sv.compare v w < 0)

/-- Swapping two pre-release tags negates their comparison. -/
def Antisymm : Prop := ∀ a b, sv.preReleaseCompare a b = -sv.preReleaseCompare b a

end Semver

/-! ## go-semver

`github.com/coreos/go-semver/semver`, as vendored. Strings are read as their
characters: a one-byte separator splits a UTF-8 string where its characters
do, and the byte order of UTF-8 strings is the order of their characters.
`strings.Split` and `strings.SplitN` are written out over the characters, so
that the parser and the comparison compute. -/

namespace GoSemver

/-- `strings.SplitN(s, sep, n + 1)` for a one-character `sep`, with `cur` the
reversed part read so far: at most `n` more splits, the rest left whole. -/
def splitNAux (sep : Char) : Nat → List Char → List Char → List (List Char)
  | _, [], cur => [cur.reverse]
  | 0, cs, cur => [cur.reverse ++ cs]
  | n + 1, c :: cs, cur => if c = sep then cur.reverse :: splitNAux sep n cs [] else splitNAux sep (n + 1) cs (c :: cur)

/-- `strings.Split(s, sep)` for a one-character `sep`. -/
def splitAux (sep : Char) : List Char → List Char → List (List Char)
  | [], cur => [cur.reverse]
  | c :: cs, cur => if c = sep then cur.reverse :: splitAux sep cs [] else splitAux sep cs (c :: cur)

/-- `splitOff(&input, delim)`: what is left of `input`, and the text after the
first `delim`, if any. -/
def splitOff (input : List Char) (delim : Char) : List Char × List Char :=
  match splitNAux delim 1 input [] with
  | [before, after] => (before, after)
  | _ => (input, [])

/-- The decimal digits `ds` read after the value `n`. -/
def digitsValue (n : Nat) : List Char → Option Nat
  | [] => some n
  | d :: ds => if d.isDigit then digitsValue (10 * n + (d.toNat - '0'.toNat)) ds else none

/-- `strconv.ParseUint(s, 10, 64)` before its range check: one or more digits. -/
def parseDigits : List Char → Option Nat
  | [] => none
  | ds => digitsValue 0 ds

/-- `strconv.ParseInt(s, 10, 64)`, and `strconv.Atoi(s)` with a 64-bit `int`:
an optional sign, then digits whose value fits in `int64`. -/
def parseInt : List Char → Option Int
  | '-' :: ds => (parseDigits ds).bind fun n => if n ≤ 2 ^ 63 then some (-(n : Int)) else none
  | '+' :: ds => (parseDigits ds).bind fun n => if n < 2 ^ 63 then some (n : Int) else none
  | ds => (parseDigits ds).bind fun n => if n < 2 ^ 63 then some (n : Int) else none

/-- `Version.Set(version)`, which `NewVersion` runs: the metadata after the
first `+`, then the pre-release after the first `-`, then three dotted
integers. -/
def newVersion (version : String) : Option Version :=
  let (version, metadata) := splitOff version.toList '+'
  let (version, preRelease) := splitOff version '-'
  match splitNAux '.' 2 version [] with
  | [major, minor, patch] =>
    match parseInt major, parseInt minor, parseInt patch with
    | some major, some minor, some patch =>
      some ⟨major, minor, patch, String.ofList preRelease, String.ofList metadata⟩
    | _, _, _ => none
  | _ => none

/-- The comparison of two identifiers as integers, when both are; `0` when
they are not, or equal. -/
def intOrder (a b : String) : Int :=
  match parseInt a.toList, parseInt b.toList with
  | some aI, some bI => if aI > bI then 1 else if aI < bI then -1 else 0
  | _, _ => 0

/-- `recursivePreReleaseCompare`: identifiers that are both integers compare as
integers, and otherwise, or when equal as integers, as strings. -/
def recursivePreReleaseCompare : List String → List String → Int
  | [], [] => 0
  | [], _ :: _ => -1
  | _ :: _, [] => 1
  | a :: as, b :: bs =>
    if intOrder a b ≠ 0 then intOrder a b
    else if a > b then 1 else if a < b then -1 else recursivePreReleaseCompare as bs

/-- `PreRelease.Slice()`: the identifiers between the dots. -/
def preReleaseSlice (p : String) : List String := (splitAux '.' p.toList []).map String.ofList

/-- `preReleaseCompare`: a version without a pre-release is above one with. -/
def preReleaseCompare (a b : String) : Int :=
  if a = "" ∧ b ≠ "" then 1
  else if b = "" ∧ a ≠ "" then -1
  else recursivePreReleaseCompare (preReleaseSlice a) (preReleaseSlice b)

theorem intOrder_antisymm (a b : String) : intOrder a b = -intOrder b a := by
  unfold intOrder
  split <;> split <;> simp_all <;> split_ifs <;> omega

theorem recursivePreReleaseCompare_antisymm :
    ∀ as bs : List String, recursivePreReleaseCompare as bs = -recursivePreReleaseCompare bs as
  | [], [] => rfl
  | [], _ :: _ => rfl
  | _ :: _, [] => rfl
  | a :: as, b :: bs => by
    have hint := intOrder_antisymm a b
    simp only [recursivePreReleaseCompare, gt_iff_lt]
    by_cases hab : intOrder a b = 0
    · -- equal as integers, or not both integers: the strings decide
      have hba : intOrder b a = 0 := by omega
      rw [if_neg (not_not.mpr hab), if_neg (not_not.mpr hba)]
      rcases lt_trichotomy a b with h | rfl | h
      · simp [h, not_lt.mpr h.le]
      · simp only [lt_irrefl, if_false]
        exact recursivePreReleaseCompare_antisymm as bs
      · simp [h, not_lt.mpr h.le]
    · have hba : intOrder b a ≠ 0 := by omega
      rw [if_pos hab, if_pos hba]
      exact hint

end GoSemver

open GoSemver in
/-- go-semver as vendored. -/
def goSemver : Semver := ⟨GoSemver.newVersion, GoSemver.preReleaseCompare⟩

theorem goSemver_antisymm : goSemver.Antisymm := by
  intro a b
  show GoSemver.preReleaseCompare a b = -GoSemver.preReleaseCompare b a
  unfold GoSemver.preReleaseCompare
  -- a tag against the empty one, or both compared identifier by identifier
  by_cases ha : a = "" <;> by_cases hb : b = "" <;> simp only [ha, hb, ne_eq, not_true_eq_false, not_false_eq_true,
    and_true, and_false, if_true, if_false, Int.reduceNeg, neg_neg] <;>
    first | rfl | exact GoSemver.recursivePreReleaseCompare_antisymm _ _

/-- The pre-release order of go-semver is not transitive: `9` is below `10` as
integers, `10` below `1a` as strings, and `1a` below `9` as strings. -/
theorem goSemver_preRelease_cycle :
    goSemver.preReleaseCompare "9" "10" = -1 ∧ goSemver.preReleaseCompare "10" "1a" = -1 ∧
      goSemver.preReleaseCompare "1a" "9" = -1 := by
  decide

/-- `featuresDict[Base]`, `1.0.0`, as `semver.New` reads it. -/
def baseVersion : Version := ⟨1, 0, 0, "", ""⟩

/-- `ParseVersion(v)`: the empty version of old stores is the base version,
and a leading `v` is dropped. -/
def parseVersion (sv : Semver) (v : String) : Option Version :=
  if v = "" then some baseVersion
  else sv.newVersion (if v.front = 'v' then (v.drop 1).copy else v)

/-- `IsCompatible(clusterVersion, v)`. -/
def isCompatible (sv : Semver) (clusterVersion v : Version) : Bool :=
  sv.lessThan clusterVersion v || (clusterVersion.major == v.major && clusterVersion.minor == v.minor)

/-! ## `LessThan` follows `(Major, Minor, Patch)` -/

namespace Version

variable {sv : Semver} {u v w : Version}

theorem patchLE_of_lessThan (h : sv.lessThan v w = true) : v.PatchLE w := by
  rw [Semver.lessThan, Semver.compare, decide_eq_true_iff] at h
  by_cases hcmp : recursiveCompare v.slice w.slice = 0
  · exact .inr (recursiveCompare_slice_eq_zero.mp hcmp)
  · rw [if_pos hcmp] at h
    exact .inl (recursiveCompare_slice_neg.mp h)

theorem minorLE_of_lessThan (h : sv.lessThan v w = true) : v.MinorLE w := (patchLE_of_lessThan h).minorLE

/-- A version below another in `(Major, Minor, Patch)` is `LessThan` it. -/
theorem lessThan_of_patchLT (h : v.PatchLT w) : sv.lessThan v w = true := by
  have hneg := recursiveCompare_slice_neg.mpr h
  rw [Semver.lessThan, Semver.compare, decide_eq_true_iff, if_pos hneg.ne]
  exact hneg

theorem patchLE_of_not_lessThan (h : sv.lessThan v w = false) : w.PatchLE v := by
  by_cases hlt : v.PatchLT w
  · rw [lessThan_of_patchLT hlt] at h
    cases h
  · unfold PatchLE PatchLT SameSlice at *
    omega

end Version

theorem minorLE_of_isCompatible {sv : Semver} {clusterVersion v : Version}
    (h : isCompatible sv clusterVersion v = true) : clusterVersion.MinorLE v := by
  rw [isCompatible, Bool.or_eq_true] at h
  rcases h with h | h
  · exact minorLE_of_lessThan h
  · simp only [Bool.and_eq_true, beq_iff_eq] at h
    exact .inr ⟨h.1, h.2.le⟩

/-! ## With an antisymmetric pre-release order, `LessThan` is asymmetric -/

namespace Semver.Antisymm

variable {sv : Semver} (h : sv.Antisymm) {v w : Version}
include h

theorem compare_antisymm (v w : Version) : sv.compare v w = -sv.compare w v := by
  unfold Semver.compare
  rw [recursiveCompare_slice_antisymm v w]
  by_cases hcmp : recursiveCompare w.slice v.slice = 0
  · rw [hcmp, neg_zero, if_neg (not_not.mpr rfl), if_neg (not_not.mpr rfl)]
    exact h _ _
  · rw [if_pos (neg_ne_zero.mpr hcmp), if_pos hcmp]

theorem not_lessThan_of_lessThan (hvw : sv.lessThan v w = true) : sv.lessThan w v = false := by
  rw [Semver.lessThan, decide_eq_true_iff] at hvw
  rw [Semver.lessThan, decide_eq_false_iff_not, h.compare_antisymm w v]
  omega

theorem not_lessThan_self (v : Version) : sv.lessThan v v = false := by
  have hzero : sv.compare v v = 0 := by
    have := h.compare_antisymm v v
    omega
  rw [Semver.lessThan, decide_eq_false_iff_not, hzero]
  exact lt_irrefl 0

end Semver.Antisymm

end PlacementDriver.Server
