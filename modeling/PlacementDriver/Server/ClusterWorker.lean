import PlacementDriver.Core.RegionInfo

/-!
# Checking a reported split

A store that has split a region reports the regions it split into, and PD
checks them before it accepts the split (`cluster_worker.go`).
`checkSplitRegion` checks the two halves of a `ReportSplit`,
`checkSplitRegions` the list of a `ReportBatchSplit`, whose last region is the
one that kept the original id.

Both checks look at neighbours only: each region must start where the one
before it ends, and end after the start of the one before it unless it runs
to the end of the key space. For two regions this is exactly what makes the
region they came from, `[left.StartKey, right.EndKey)`, a nonempty range, and
that region is what `handleReportSplit` rebuilds. It is not a check of each
region on its own: a region whose start lies past its end passes between
neighbours that fit around it (`split_checks_pass_wrapped_region`).

A nil `left` or `right` of a `ReportSplit` is `none`. The regions of a batch
are never nil, as protobuf decodes each element of a repeated message field
to a message of its own.

## Main results

* `checkSplitPairs_eq_ok_iff`: the loop of `checkSplitRegions` passes exactly
  on the lists in which every two neighbours are `SplitAdjacent`.
* `checkSplitRegion_eq_ok_iff`: the pair check is the batch check on
  `[left, right]`.
* `handleReportSplit_range`: the region a passed pair report rebuilds has a
  nonempty range.
-/

namespace PlacementDriver

namespace Server

open Metapb

/-- The error of every failed split check, `errors.New("invalid split region")`. -/
def errInvalidSplitRegion : String := "invalid split region"

/-- `checkSplitRegion(left, right)`. -/
def checkSplitRegion (left right : Option Region) : Except String Unit :=
  match left, right with
  | some left, some right =>
    if left.endKey ≠ right.startKey then .error errInvalidSplitRegion
    else if right.endKey.isEmpty || decide (left.startKey < right.endKey) then .ok ()
    else .error errInvalidSplitRegion
  | _, _ => .error errInvalidSplitRegion

/-- The loop of `checkSplitRegions` over the pairs `regions[i-1], regions[i]`. -/
def checkSplitPairs : List Region → Except String Unit
  | [] => .ok ()
  | [_] => .ok ()
  | left :: right :: rest =>
    if left.endKey ≠ right.startKey then .error errInvalidSplitRegion
    else if !right.endKey.isEmpty && decide (right.endKey ≤ left.startKey) then .error errInvalidSplitRegion
    else checkSplitPairs (right :: rest)

/-- `checkSplitRegions(regions)`. -/
def checkSplitRegions (regions : List Region) : Except String Unit :=
  if regions.length ≤ 1 then .error errInvalidSplitRegion else checkSplitPairs regions

/-- `handleReportSplit`, read for the region it rebuilds and logs: `right`
with `left`'s start key and a nil epoch. The response it sends is empty. -/
def handleReportSplit (left right : Option Region) : Except String Region := do
  checkSplitRegion left right
  match left, right with
  | some left, some right => pure { right with regionEpoch := ⟨0, 0⟩, startKey := left.startKey }
  | _, _ => throw errInvalidSplitRegion

/-- What both checks ask of two neighbours: `right` starts where `left` ends,
and ends after `left` starts unless it runs to the end of the key space. -/
def SplitAdjacent (left right : Region) : Prop :=
  left.endKey = right.startKey ∧ (right.endKey.isEmpty = true ∨ left.startKey < right.endKey)

instance splitAdjacentDecidable (left right : Region) : Decidable (SplitAdjacent left right) :=
  inferInstanceAs (Decidable (_ ∧ _))

/-! ## The checks -/

/-- The second test of the loop rejects a pair exactly when the first region
starts at or after the end of the second. -/
theorem rejects_iff (left right : Region) :
    (!right.endKey.isEmpty && decide (right.endKey ≤ left.startKey)) = true ↔
      ¬ (right.endKey.isEmpty = true ∨ left.startKey < right.endKey) := by
  rw [not_or, ← not_le, not_not]
  simp

/-- The first test of `checkSplitRegion` passes exactly when the first region
starts before the end of the second. -/
theorem fits_iff (left right : Region) :
    (right.endKey.isEmpty || decide (left.startKey < right.endKey)) = true ↔
      (right.endKey.isEmpty = true ∨ left.startKey < right.endKey) := by
  simp

theorem checkSplitPairs_eq_ok_iff (regions : List Region) :
    checkSplitPairs regions = .ok () ↔ regions.IsChain SplitAdjacent := by
  induction regions using checkSplitPairs.induct with
  | case1 => exact iff_of_true rfl List.isChain_nil
  | case2 r => exact iff_of_true rfl (List.isChain_singleton r)
  | case3 left right rest hne =>
    rw [checkSplitPairs, if_pos hne, List.isChain_cons_cons]
    exact iff_of_false nofun fun h => hne h.1.1
  | case4 left right rest hne hrej =>
    rw [checkSplitPairs, if_neg hne, if_pos hrej, List.isChain_cons_cons]
    exact iff_of_false nofun fun h => (rejects_iff left right).mp hrej h.1.2
  | case5 left right rest hne hrej ih =>
    -- neither test rejects the pair, so the loop goes on from `right`
    rw [checkSplitPairs, if_neg hne, if_neg hrej, ih, List.isChain_cons_cons]
    have hfit := not_not.mp (mt (rejects_iff left right).mpr hrej)
    exact ⟨fun h => ⟨⟨not_not.mp hne, hfit⟩, h⟩, And.right⟩

theorem checkSplitRegions_eq_ok_iff (regions : List Region) :
    checkSplitRegions regions = .ok () ↔ 2 ≤ regions.length ∧ regions.IsChain SplitAdjacent := by
  unfold checkSplitRegions
  by_cases hlen : regions.length ≤ 1
  · rw [if_pos hlen]
    exact iff_of_false nofun (by omega)
  · rw [if_neg hlen, checkSplitPairs_eq_ok_iff]
    exact ⟨fun h => ⟨by omega, h⟩, And.right⟩

theorem checkSplitRegions_pair (l r : Region) :
    checkSplitRegions [l, r] = .ok () ↔ SplitAdjacent l r := by
  rw [checkSplitRegions_eq_ok_iff, List.isChain_pair]
  exact ⟨And.right, fun h => ⟨le_rfl, h⟩⟩

/-- The pair check is the batch check on the pair. -/
theorem checkSplitRegion_eq_ok_iff (left right : Option Region) :
    checkSplitRegion left right = .ok () ↔
      ∃ l r, left = some l ∧ right = some r ∧ checkSplitRegions [l, r] = .ok () := by
  cases left with
  | none => exact iff_of_false nofun (by simp)
  | some l =>
    cases right with
    | none => exact iff_of_false nofun (by simp)
    | some r =>
      simp only [Option.some.injEq, exists_and_left, exists_eq_left', checkSplitRegions_pair, SplitAdjacent,
        checkSplitRegion]
      by_cases hne : l.endKey ≠ r.startKey
      · rw [if_pos hne]
        exact iff_of_false nofun fun h => hne h.1
      · rw [if_neg hne]
        by_cases hfit : (r.endKey.isEmpty || decide (l.startKey < r.endKey)) = true
        · rw [if_pos hfit]
          exact iff_of_true rfl ⟨not_not.mp hne, (fits_iff l r).mp hfit⟩
        · rw [if_neg hfit]
          exact iff_of_false nofun fun h => hfit ((fits_iff l r).mpr h.2)

/-- The region a passed pair report rebuilds runs from `left`'s start to
`right`'s end, and that range is not empty. -/
theorem handleReportSplit_range {left right : Option Region} {origin : Region}
    (h : handleReportSplit left right = .ok origin) :
    ∃ l r, left = some l ∧ right = some r ∧ origin.startKey = l.startKey ∧ origin.endKey = r.endKey ∧
      (origin.endKey.isEmpty = true ∨ origin.startKey < origin.endKey) := by
  match left, right, h with
  | some l, some r, h =>
    cases hcheck : checkSplitRegion (some l) (some r) with
    | error e =>
      rw [handleReportSplit, hcheck] at h
      cases h
    | ok u =>
      -- the check passed, so the pair is adjacent and the region is `r` from `l`'s start
      obtain ⟨_, _, ⟨⟩, ⟨⟩, hpair⟩ := (checkSplitRegion_eq_ok_iff _ _).mp hcheck
      rw [handleReportSplit, hcheck] at h
      cases h
      exact ⟨l, r, rfl, rfl, rfl, rfl, ((checkSplitRegions_pair l r).mp hpair).2⟩
  | none, _, h => nomatch h
  | some _, none, h => nomatch h

/-- Both checks in the words of the split report: the batch check passes
exactly on at least two regions each starting where the one before it ends
and ending, unless it runs to the end of the key space, after the start of the
one before it; the pair check is the batch check on the pair. -/
theorem split_checks_accept_adjacent_pairs (regions : List Region) (left right : Option Region) :
    (checkSplitRegions regions = .ok () ↔ 2 ≤ regions.length ∧
      ∀ (i : Nat) (hi : i + 1 < regions.length),
        regions[i].endKey = regions[i + 1].startKey ∧
          (regions[i + 1].endKey.isEmpty = true ∨ regions[i].startKey < regions[i + 1].endKey)) ∧
    (checkSplitRegion left right = .ok () ↔
      ∃ l r, left = some l ∧ right = some r ∧ checkSplitRegions [l, r] = .ok ()) := by
  refine ⟨?_, checkSplitRegion_eq_ok_iff left right⟩
  rw [checkSplitRegions_eq_ok_iff, List.isChain_iff_getElem]
  rfl

/-- A region that runs backwards, from `b` to `a`. -/
def backwardsRegion : Region := ⟨2, [0x62], [0x61], ⟨1, 1⟩, []⟩

/-- The region `[a, c)` after it. -/
def acRegion : Region := ⟨3, [0x61], [0x63], ⟨1, 1⟩, []⟩

theorem split_checks_pass_wrapped_region :
    checkSplitRegions [backwardsRegion, acRegion] = .ok () ∧
      ¬ (backwardsRegion.endKey.isEmpty = true ∨ backwardsRegion.startKey < backwardsRegion.endKey) :=
  ⟨rfl, by decide⟩

end Server

end PlacementDriver
