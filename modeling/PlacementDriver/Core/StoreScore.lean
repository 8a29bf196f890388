import Mathlib
import PlacementDriver.Go.Int

/-!
# Store scores

`core/store.go`: the scores by which the balance schedulers compare stores.
The leader score is the leader size over the leader weight. The region score
has three stages, by the space a store has left once it takes `delta` more
region size: the region size itself while space is high, the large
`maxScore` less the space left once it is low, and in between the line
through the two stages' end points, which the code's comment builds so that
the score is continuous.

The code computes in `float64`. We read that arithmetic exactly over the
rationals, so `1e-6` is `1 / 10 ^ 6`. The leader score's `LeaderSize + delta`
is an `int64` sum and wraps (`Go.Int.wrap64`). The region score's
`RegionSize + delta` is read without the wrap: its `delta` is an `int64` that the code converts to
`float64`; we take it as any rational, so that the score is a function on the
rationals and its continuity at the stage boundaries, which no integer need
hit, can be stated.

## Main results

* `regionScore_monotone`: with a positive region size, used size and
  capacity, `highSpaceRatio < lowSpaceRatio`, and the transition's end point
  above its start point, the region score does not decrease as `delta` grows.
* `regionScore_continuous`: under the same conditions but the last, the
  region score is continuous; the stages agree at their boundaries.
-/

namespace PlacementDriver.Core

open Set

/-- The fields of `core.StoreInfo` the scores read: the `float64` weights as
rationals, the `int64` sizes as integers, the `uint64` stats as naturals. -/
structure StoreScoreInfo where
  id : UInt64
  leaderSize : Int
  leaderWeight : ℚ
  regionSize : Int
  regionWeight : ℚ
  /-- `Stats.GetAvailable()`, in bytes -/
  available : Nat
  /-- `Stats.GetUsedSize()`, in bytes -/
  usedSize : Nat
  /-- `Stats.GetCapacity()`, in bytes -/
  capacity : Nat
deriving DecidableEq, Repr

/-- `minWeight`: `1e-6`. -/
def minWeight : ℚ := 1 / 1000000

/-- `maxScore`. -/
def maxScore : ℚ := 1024 * 1024 * 1024

/-- `core.ResourceKind`. -/
inductive ResourceKind
  | leaderKind
  | regionKind
deriving DecidableEq, Repr

namespace StoreScoreInfo

variable (s : StoreScoreInfo)

/-- `LeaderScore(delta)`: `float64(LeaderSize + delta) / max(LeaderWeight,
minWeight)`, the `int64` sum wrapping. -/
def leaderScore (delta : Int) : ℚ := (Go.Int.wrap64 (s.leaderSize + delta) : ℚ) / max s.leaderWeight minWeight

/-- `available`: `float64(s.Stats.GetAvailable()) / (1 << 20)`, in MiB. -/
def availableMiB : ℚ := (s.available : ℚ) / 2 ^ 20

/-- `used`: `float64(s.Stats.GetUsedSize()) / (1 << 20)`. -/
def usedMiB : ℚ := (s.usedSize : ℚ) / 2 ^ 20

/-- `capacity`: `float64(s.Stats.GetCapacity()) / (1 << 20)`. -/
def capacityMiB : ℚ := (s.capacity : ℚ) / 2 ^ 20

/-- `amplification`: region size per MiB used, because of compression;
`1` for a store without regions. -/
def amplification : ℚ := if s.regionSize = 0 then 1 else (s.regionSize : ℚ) / s.usedMiB

/-- `highSpaceBound`: the lower bound of the high space stage. -/
def highSpaceBound (highSpaceRatio : ℚ) : ℚ := (1 - highSpaceRatio) * s.capacityMiB

/-- `lowSpaceBound`: the upper bound of the low space stage. -/
def lowSpaceBound (lowSpaceRatio : ℚ) : ℚ := (1 - lowSpaceRatio) * s.capacityMiB

/-- `RegionScore(highSpaceRatio, lowSpaceRatio, delta)`. -/
def regionScore (highSpaceRatio lowSpaceRatio delta : ℚ) : ℚ :=
  let available := s.availableMiB
  let used := s.usedMiB
  let amplification := s.amplification
  let highSpaceBound := s.highSpaceBound highSpaceRatio
  let lowSpaceBound := s.lowSpaceBound lowSpaceRatio
  let score :=
    if available - delta / amplification ≥ highSpaceBound then (s.regionSize : ℚ) + delta
    else if available - delta / amplification ≤ lowSpaceBound then
      maxScore - (available - delta / amplification)
    else
      let x1 := (used + available - highSpaceBound) * amplification
      let y1 := (used + available - highSpaceBound) * amplification
      let x2 := (used + available - lowSpaceBound) * amplification
      let y2 := maxScore - lowSpaceBound
      let k := (y2 - y1) / (x2 - x1)
      let b := y1 - k * x1
      k * ((s.regionSize : ℚ) + delta) + b
  score / max s.regionWeight minWeight

/-- `ResourceScore(kind, highSpaceRatio, lowSpaceRatio, delta)`. -/
def resourceScore (kind : ResourceKind) (highSpaceRatio lowSpaceRatio : ℚ) (delta : Int) : ℚ :=
  match kind with
  | .leaderKind => s.leaderScore delta
  | .regionKind => s.regionScore highSpaceRatio lowSpaceRatio delta

/-! ## The three stages -/

/-- The space left, in MiB, once `delta` more region size is placed. -/
def spaceLeft (delta : ℚ) : ℚ := s.availableMiB - delta / s.amplification

/-- The line of the transition stage, through `(x1, y1)` and `(x2, y2)`. -/
def transitionScore (highSpaceRatio lowSpaceRatio delta : ℚ) : ℚ :=
  let x1 := (s.usedMiB + s.availableMiB - s.highSpaceBound highSpaceRatio) * s.amplification
  let x2 := (s.usedMiB + s.availableMiB - s.lowSpaceBound lowSpaceRatio) * s.amplification
  let y2 := maxScore - s.lowSpaceBound lowSpaceRatio
  (y2 - x1) / (x2 - x1) * ((s.regionSize : ℚ) + delta) + (x1 - (y2 - x1) / (x2 - x1) * x1)

/-- The score before the division by the weight, stage by stage. -/
def stagedScore (highSpaceRatio lowSpaceRatio delta : ℚ) : ℚ :=
  if s.highSpaceBound highSpaceRatio ≤ s.spaceLeft delta then (s.regionSize : ℚ) + delta
  else if s.spaceLeft delta ≤ s.lowSpaceBound lowSpaceRatio then maxScore - s.spaceLeft delta
  else s.transitionScore highSpaceRatio lowSpaceRatio delta

theorem regionScore_eq (highSpaceRatio lowSpaceRatio : ℚ) :
    s.regionScore highSpaceRatio lowSpaceRatio =
      fun delta => s.stagedScore highSpaceRatio lowSpaceRatio delta / max s.regionWeight minWeight :=
  rfl

variable {s}

theorem weight_pos : 0 < max s.regionWeight minWeight :=
  lt_max_of_lt_right (by norm_num [minWeight])

theorem usedMiB_pos (hU : 0 < s.usedSize) : 0 < s.usedMiB := by
  unfold usedMiB
  positivity

section Stages

variable (hRS : 0 < s.regionSize) (hU : 0 < s.usedSize)
include hRS hU

theorem amplification_pos : 0 < s.amplification := by
  have hused := usedMiB_pos hU
  have hsize : (0 : ℚ) < s.regionSize := Int.cast_pos.mpr hRS
  rw [amplification, if_neg hRS.ne']
  positivity

/-- The used space times the amplification is the region size. -/
theorem usedMiB_mul_amplification : s.usedMiB * s.amplification = s.regionSize := by
  have hused := (usedMiB_pos hU).ne'
  rw [amplification, if_neg hRS.ne']
  field_simp

/-- The high space stage is `delta` up to `(available - highSpaceBound) * amplification`. -/
theorem le_spaceLeft_iff (bound delta : ℚ) :
    bound ≤ s.spaceLeft delta ↔ delta ≤ (s.availableMiB - bound) * s.amplification := by
  rw [spaceLeft, ← div_le_iff₀ (amplification_pos hRS hU)]
  constructor <;> intro h <;> linarith

theorem spaceLeft_le_iff (bound delta : ℚ) :
    s.spaceLeft delta ≤ bound ↔ (s.availableMiB - bound) * s.amplification ≤ delta := by
  rw [spaceLeft, ← le_div_iff₀ (amplification_pos hRS hU)]
  constructor <;> intro h <;> linarith

/-- At the high space bound the line is the region size, which the high
space stage scores. -/
theorem transitionScore_of_high {high low delta : ℚ} (hd : s.spaceLeft delta = s.highSpaceBound high) :
    s.transitionScore high low delta = (s.regionSize : ℚ) + delta := by
  have ha := (amplification_pos hRS hU).ne'
  have hdelta : delta = (s.availableMiB - s.highSpaceBound high) * s.amplification := by
    rw [← hd, spaceLeft]
    field_simp
    ring
  -- the line's first point is the region size at this `delta`
  have hx1 : (s.usedMiB + s.availableMiB - s.highSpaceBound high) * s.amplification =
      (s.regionSize : ℚ) + delta := by
    rw [hdelta, ← usedMiB_mul_amplification hRS hU]
    ring
  simp only [transitionScore, hx1]
  ring

/-- At the low space bound the line is `maxScore - lowSpaceBound`, which the
low space stage scores. -/
theorem transitionScore_of_low {high low delta : ℚ} (hbound : s.lowSpaceBound low < s.highSpaceBound high)
    (hd : s.spaceLeft delta = s.lowSpaceBound low) :
    s.transitionScore high low delta = maxScore - s.spaceLeft delta := by
  have ha := amplification_pos hRS hU
  have hdelta : delta = (s.availableMiB - s.lowSpaceBound low) * s.amplification := by
    rw [← hd, spaceLeft]
    field_simp
    ring
  have hx2 : (s.usedMiB + s.availableMiB - s.lowSpaceBound low) * s.amplification =
      (s.regionSize : ℚ) + delta := by
    rw [hdelta, ← usedMiB_mul_amplification hRS hU]
    ring
  -- the two points are apart: `x2 - x1 = (highSpaceBound - lowSpaceBound) * amplification`
  have hwidth : (s.usedMiB + s.availableMiB - s.lowSpaceBound low) * s.amplification -
      (s.usedMiB + s.availableMiB - s.highSpaceBound high) * s.amplification ≠ 0 := by
    have : 0 < (s.highSpaceBound high - s.lowSpaceBound low) * s.amplification :=
      mul_pos (by linarith) ha
    intro h
    linarith
  simp only [transitionScore]
  rw [hd, ← hx2]
  set x1 := (s.usedMiB + s.availableMiB - s.highSpaceBound high) * s.amplification
  set x2 := (s.usedMiB + s.availableMiB - s.lowSpaceBound low) * s.amplification
  calc (maxScore - s.lowSpaceBound low - x1) / (x2 - x1) * x2 +
        (x1 - (maxScore - s.lowSpaceBound low - x1) / (x2 - x1) * x1)
      = (maxScore - s.lowSpaceBound low - x1) / (x2 - x1) * (x2 - x1) + x1 := by ring
    _ = maxScore - s.lowSpaceBound low := by
      rw [div_mul_cancel₀ _ hwidth]
      ring

end Stages

theorem lowSpaceBound_lt_highSpaceBound (hC : 0 < s.capacity) {high low : ℚ} (hratio : high < low) :
    s.lowSpaceBound low < s.highSpaceBound high := by
  have hcap : 0 < s.capacityMiB := by
    unfold capacityMiB
    positivity
  unfold lowSpaceBound highSpaceBound
  nlinarith

/-! ## Continuity and monotonicity -/

theorem continuous_spaceLeft : Continuous s.spaceLeft := by
  unfold spaceLeft
  fun_prop

theorem continuous_transitionScore (high low : ℚ) : Continuous (s.transitionScore high low) := by
  unfold transitionScore
  fun_prop

/-- The stages agree where they meet, so the region score is continuous. -/
theorem regionScore_continuous (hRS : 0 < s.regionSize) (hU : 0 < s.usedSize) (hC : 0 < s.capacity)
    {high low : ℚ} (hratio : high < low) : Continuous (s.regionScore high low) := by
  have hbound := lowSpaceBound_lt_highSpaceBound hC hratio
  rw [regionScore_eq]
  refine Continuous.div_const ?_ _
  -- the low space stage meets the line at `lowSpaceBound`
  have hinner : Continuous fun delta => if s.spaceLeft delta ≤ s.lowSpaceBound low then
      maxScore - s.spaceLeft delta else s.transitionScore high low delta := by
    refine Continuous.if_le (continuous_const.sub continuous_spaceLeft) (continuous_transitionScore high low)
      continuous_spaceLeft continuous_const fun delta hd => ?_
    exact (transitionScore_of_low hRS hU hbound hd).symm
  -- the high space stage meets the line at `highSpaceBound`
  refine Continuous.if_le (continuous_const.add continuous_id) hinner continuous_const continuous_spaceLeft
    fun delta hd => ?_
  have hnot : ¬ s.spaceLeft delta ≤ s.lowSpaceBound low := by
    rw [← hd]
    exact not_le.mpr hbound
  simp only [hnot, if_false]
  exact (transitionScore_of_high hRS hU hd.symm).symm

theorem transitionScore_monotone (hRS : 0 < s.regionSize) (hU : 0 < s.usedSize) {high low : ℚ}
    (hbound : s.lowSpaceBound low < s.highSpaceBound high)
    (hy : (s.usedMiB + s.availableMiB - s.highSpaceBound high) * s.amplification ≤
      maxScore - s.lowSpaceBound low) :
    Monotone (s.transitionScore high low) := by
  have hwidth : 0 < (s.usedMiB + s.availableMiB - s.lowSpaceBound low) * s.amplification -
      (s.usedMiB + s.availableMiB - s.highSpaceBound high) * s.amplification := by
    have := mul_pos (sub_pos.mpr hbound) (amplification_pos hRS hU)
    linarith
  -- the slope `(y2 - y1) / (x2 - x1)` is not negative
  have hslope := div_nonneg (sub_nonneg.mpr hy) hwidth.le
  intro d d' hd
  simp only [transitionScore]
  gcongr

/-- Each stage is increasing in `delta`, and the stages meet where one ends
and the next begins, so the region score does not decrease. -/
theorem regionScore_monotone (hRS : 0 < s.regionSize) (hU : 0 < s.usedSize) (hC : 0 < s.capacity)
    {high low : ℚ} (hratio : high < low)
    (hy : (s.usedMiB + s.availableMiB - s.highSpaceBound high) * s.amplification ≤
      maxScore - s.lowSpaceBound low) :
    Monotone (s.regionScore high low) := by
  have hbound := lowSpaceBound_lt_highSpaceBound hC hratio
  have ha := amplification_pos hRS hU
  -- the stage boundaries, as values of `delta`
  set th := (s.availableMiB - s.highSpaceBound high) * s.amplification with hth
  set tl := (s.availableMiB - s.lowSpaceBound low) * s.amplification with htl
  have hlt : th < tl := mul_lt_mul_of_pos_right (by linarith) ha
  have hhigh : MonotoneOn (s.stagedScore high low) (Iic th) := by
    have hmono : Monotone fun d : ℚ => (s.regionSize : ℚ) + d := fun d d' hd => by
      simp only
      linarith
    refine (hmono.monotoneOn _).congr fun d (hd : d ≤ th) => ?_
    rw [stagedScore, if_pos ((le_spaceLeft_iff hRS hU _ d).mpr hd)]
  have hmid : MonotoneOn (s.stagedScore high low) (Icc th tl) := by
    refine ((transitionScore_monotone hRS hU hbound hy).monotoneOn _).congr fun d hd => ?_
    rcases hd.1.eq_or_lt with rfl | hd₁
    · -- at the high space bound
      have hspace : s.spaceLeft th = s.highSpaceBound high := by
        rw [spaceLeft, hth]
        field_simp
        ring
      rw [stagedScore, if_pos hspace.ge, transitionScore_of_high hRS hU hspace]
    · rcases hd.2.eq_or_lt with rfl | hd₂
      · -- at the low space bound
        have hspace : s.spaceLeft tl = s.lowSpaceBound low := by
          rw [spaceLeft, htl]
          field_simp
          ring
        rw [stagedScore, if_neg (mt (le_spaceLeft_iff hRS hU _ _).mp (not_le.mpr hlt)), if_pos hspace.le,
          transitionScore_of_low hRS hU hbound hspace]
      · rw [stagedScore, if_neg (mt (le_spaceLeft_iff hRS hU _ _).mp (not_le.mpr hd₁)),
          if_neg (mt (spaceLeft_le_iff hRS hU _ _).mp (not_le.mpr hd₂))]
  have hlow : MonotoneOn (s.stagedScore high low) (Ici tl) := by
    have hmono : Monotone fun d => maxScore - s.spaceLeft d := fun d d' hd => by
      simp only [spaceLeft]
      have := div_le_div_of_nonneg_right hd ha.le
      linarith
    refine (hmono.monotoneOn _).congr fun d (hd : tl ≤ d) => ?_
    rw [stagedScore, if_neg (mt (le_spaceLeft_iff hRS hU _ _).mp (not_le.mpr (hlt.trans_le hd))),
      if_pos ((spaceLeft_le_iff hRS hU _ d).mpr hd)]
  have hstaged : Monotone (s.stagedScore high low) := by
    have hleft := hhigh.union_right hmid isGreatest_Iic (isLeast_Icc hlt.le)
    rw [Iic_union_Icc_eq_Iic hlt.le] at hleft
    exact hleft.Iic_union_Ici hlow
  rw [regionScore_eq]
  exact fun d d' hd => div_le_div_of_nonneg_right (hstaged hd) weight_pos.le

theorem region_score_monotone_continuous (s : StoreScoreInfo) (high low : ℚ) (hRS : 0 < s.regionSize)
    (hU : 0 < s.usedSize) (hC : 0 < s.capacity) (hratio : high < low)
    (hy : (s.usedMiB + s.availableMiB - s.highSpaceBound high) * s.amplification < maxScore - s.lowSpaceBound low) :
    Monotone (s.regionScore high low) ∧ Continuous (s.regionScore high low) ∧
      ∀ delta, s.availableMiB - delta / s.amplification = s.highSpaceBound high ∨
        s.availableMiB - delta / s.amplification = s.lowSpaceBound low →
        ContinuousAt (s.regionScore high low) delta := by
  have hcont := regionScore_continuous hRS hU hC hratio
  exact ⟨regionScore_monotone hRS hU hC hratio hy.le, hcont, fun _ _ => hcont.continuousAt⟩

/-- A store of 100 MiB of regions on 100 MiB used, with 1000 MiB of 2000 MiB
available. -/
def scoreStore : StoreScoreInfo := ⟨1, 0, 1, 100, 1, 1000 * 2 ^ 20, 100 * 2 ^ 20, 2000 * 2 ^ 20⟩

theorem region_score_monotone_continuous_scoreStore :
    Monotone (scoreStore.regionScore (6 / 10) (8 / 10)) ∧ Continuous (scoreStore.regionScore (6 / 10) (8 / 10)) ∧
      ∀ delta, scoreStore.availableMiB - delta / scoreStore.amplification = scoreStore.highSpaceBound (6 / 10) ∨
        scoreStore.availableMiB - delta / scoreStore.amplification = scoreStore.lowSpaceBound (8 / 10) →
        ContinuousAt (scoreStore.regionScore (6 / 10) (8 / 10)) delta :=
  region_score_monotone_continuous scoreStore (6 / 10) (8 / 10) (by decide) (by decide) (by decide) (by norm_num)
    (by norm_num [scoreStore, usedMiB, availableMiB, highSpaceBound, lowSpaceBound, capacityMiB, amplification,
      maxScore])

end StoreScoreInfo

end PlacementDriver.Core
