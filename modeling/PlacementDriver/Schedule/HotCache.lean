import PlacementDriver.Core.Statistics
import PlacementDriver.Cache.TwoQueue

/-!
# The hot-spot cache

`HotSpotCache` (in `server/schedule/hot_cache.go`) keeps a 2Q cache of
`RegionStat` records for each flow kind. A heartbeat is checked against the
cache (`CheckWrite`, `CheckRead`): the flow rate is compared with a hot
threshold and `isNeedUpdateStatCache` returns whether to update the cache and
the record to store, `nil` meaning "remove". The caller stores the record
(`Update`) only when the flag is set.

A record new to the cache gets a new window of rolling statistics; an update
shares the old record's window and writes to it, and that write happens in
the check, before the caller decides anything. So the windows live in a heap
(`rollingStats`, see `Core.Statistics`) that a check may change even when the
caches do not.

`Valid` is the invariant of the cache: both 2Q caches are valid, every window
in the heap is well-formed, and every stored record is `RegionStat.WellFormed`:
its window is allocated, `0 ≤ AntiCount ≤ hotRegionAntiCount`, and
`HotDegree ≥ AntiCount - hotRegionAntiCount`, which is `HotDegree ≥ -1` as
`hotRegionAntiCount = 1`. A check on a valid cache never panics and returns a
well-formed record whenever its flag is set (`Valid.checkWrite`,
`Valid.checkRead`), and `Update` with such a record keeps the cache valid
(`Valid.update`).

Go's `int` is 64 bits wide; `HotDegree` is an `Int` here, as it could only
wrap after `2 ^ 63` consecutive hot reports of one region.
-/

namespace PlacementDriver

namespace Schedule

/-- `RegionHeartBeatReportInterval`, in seconds. -/
def RegionHeartBeatReportInterval : Nat := 60

/-- `statCacheMaxLen`. -/
def statCacheMaxLen : Int := 1000

/-- `hotWriteRegionMinFlowRate`. -/
def hotWriteRegionMinFlowRate : UInt64 := 16 * 1024

/-- `hotReadRegionMinFlowRate`. -/
def hotReadRegionMinFlowRate : UInt64 := 128 * 1024

/-- `minHotRegionReportInterval`, in seconds. -/
def minHotRegionReportInterval : Float := 3

/-- `hotRegionAntiCount`. -/
def hotRegionAntiCount : Int := 1

/-- `rollingWindowsSize`. -/
def rollingWindowsSize : Int := 5

end Schedule

open Schedule

/-- A record as the hot-spot cache stores it, in a heap of `allocated`
windows. -/
structure RegionStat.WellFormed (allocated : Nat) (s : RegionStat) : Prop where
  stats : ∃ p, s.stats = some p ∧ p < allocated
  antiCount_nonneg : 0 ≤ s.antiCount
  antiCount_le : s.antiCount ≤ hotRegionAntiCount
  hotDegree_ge : s.antiCount - hotRegionAntiCount ≤ s.hotDegree

theorem RegionStat.WellFormed.mono {s : RegionStat} {n m : Nat} (h : s.WellFormed n) (hle : n ≤ m) :
    s.WellFormed m := by
  obtain ⟨p, hp, hlt⟩ := h.stats
  exact ⟨⟨p, hp, lt_of_lt_of_le hlt hle⟩, h.antiCount_nonneg, h.antiCount_le, h.hotDegree_ge⟩

theorem RegionStat.WellFormed.hotDegree_ge_neg_one {s : RegionStat} {n : Nat} (h : s.WellFormed n) :
    -1 ≤ s.hotDegree := by
  have h1 := h.hotDegree_ge
  have h2 := h.antiCount_nonneg
  simp only [hotRegionAntiCount] at h1
  omega

namespace Schedule

open Cache

/-- `FlowKind`. -/
inductive FlowKind where
  | writeFlow
  | readFlow
deriving DecidableEq, Repr

/-- `HotSpotCache`, with the heap of the windows its records point to. -/
structure HotSpotCache where
  writeFlow : TwoQueue RegionStat
  readFlow : TwoQueue RegionStat
  rollingStats : List RollingStats

namespace HotSpotCache

/-- `newHotSpotCache`. -/
def newHotSpotCache : HotSpotCache :=
  ⟨TwoQueue.newTwoQueue statCacheMaxLen, TwoQueue.newTwoQueue statCacheMaxLen, []⟩

/-- The cache of a flow kind, as the `switch kind` of `Update` and
`RegionStats` selects it. -/
def flow (w : HotSpotCache) : FlowKind → TwoQueue RegionStat
  | .writeFlow => w.writeFlow
  | .readFlow => w.readFlow

/-- The cache with the cache of a flow kind replaced. -/
def setFlow (w : HotSpotCache) (kind : FlowKind) (c : TwoQueue RegionStat) : HotSpotCache :=
  match kind with
  | .writeFlow => { w with writeFlow := c }
  | .readFlow => { w with readFlow := c }

/-- `time.Duration.Seconds` of a duration in nanoseconds. -/
def durationSeconds (d : Int) : Float :=
  Float.ofInt (d.tdiv 1000000000) + Float.ofInt (d.tmod 1000000000) / 1e9

/-- The body shared by `calculateWriteHotThreshold` and
`calculateReadHotThreshold`. -/
def calculateHotThreshold (totalBytesRate divisor : Float) (minFlowRate : UInt64) : UInt64 :=
  let hotRegionThreshold := (totalBytesRate / divisor).toUInt64
  if hotRegionThreshold < minFlowRate then minFlowRate else hotRegionThreshold

/-- `calculateWriteHotThreshold`, of `stores.TotalBytesWriteRate()`: the store
reports about twice what the regions write. -/
def calculateWriteHotThreshold (totalBytesWriteRate : Float) : UInt64 :=
  calculateHotThreshold totalBytesWriteRate (Float.ofInt statCacheMaxLen * 2) hotWriteRegionMinFlowRate

/-- `calculateReadHotThreshold`, of `stores.TotalBytesReadRate()`. -/
def calculateReadHotThreshold (totalBytesReadRate : Float) : UInt64 :=
  calculateHotThreshold totalBytesReadRate (Float.ofInt statCacheMaxLen) hotReadRegionMinFlowRate

/-- `isNeedUpdateStatCache`. -/
def isNeedUpdateStatCache (w : HotSpotCache) (region : RegionInfo) (flowBytes hotRegionThreshold : UInt64)
    (oldItem : Option RegionStat) (now : Int) : Option (HotSpotCache × Bool × Option RegionStat) :=
  let newItem := newRegionStat region flowBytes hotRegionAntiCount now
  -- an update counts on from the old record and shares its window
  let newItem := match oldItem with
    | some old => { newItem with hotDegree := old.hotDegree + 1, stats := old.stats }
    | none => newItem
  if flowBytes ≥ hotRegionThreshold then do
    let (heap, newItem) ← match oldItem with
      | none => (RollingStats.newRollingStats rollingWindowsSize).map fun s =>
          (w.rollingStats ++ [s], { newItem with stats := some w.rollingStats.length })
      | some _ => some (w.rollingStats, newItem)
    let heap ← addAt heap newItem.stats flowBytes.toFloat
    pure ({ w with rollingStats := heap }, true, some newItem)
  else
    match oldItem with
    | none => some (w, false, some newItem)
    | some old =>
        if old.antiCount ≤ 0 then some (w, true, none)
        else
          -- a cold report spends one unit of the anti count
          let newItem := { newItem with hotDegree := old.hotDegree - 1, antiCount := old.antiCount - 1 }
          (addAt w.rollingStats newItem.stats flowBytes.toFloat).map fun heap =>
            ({ w with rollingStats := heap }, true, some newItem)

/-- The body shared by `CheckWrite` and `CheckRead`: `bytes` is what the
region reports for the kind; `Simulating` and `time.Now()` are parameters. -/
def check (w : HotSpotCache) (kind : FlowKind) (region : RegionInfo) (bytes hotRegionThreshold : UInt64)
    (simulating : Bool) (now : Int) : Option (HotSpotCache × Bool × Option RegionStat) :=
  let bytesPerSec := (bytes.toFloat / Float.ofNat RegionHeartBeatReportInterval).toUInt64
  match (w.flow kind).peek region.getID with
  | none => w.isNeedUpdateStatCache region bytesPerSec hotRegionThreshold none now
  | some value =>
      if simulating then
        w.isNeedUpdateStatCache region bytesPerSec hotRegionThreshold (some value) now
      else
        let interval := durationSeconds (now - value.lastUpdateTime)
        if interval < minHotRegionReportInterval then some (w, false, none)
        else w.isNeedUpdateStatCache region (bytes.toFloat / interval).toUInt64 hotRegionThreshold (some value) now

/-- `CheckWrite`. -/
def checkWrite (w : HotSpotCache) (region : RegionInfo) (totalBytesWriteRate : Float) (simulating : Bool)
    (now : Int) : Option (HotSpotCache × Bool × Option RegionStat) :=
  w.check .writeFlow region region.writtenBytes (calculateWriteHotThreshold totalBytesWriteRate) simulating now

/-- `CheckRead`. -/
def checkRead (w : HotSpotCache) (region : RegionInfo) (totalBytesReadRate : Float) (simulating : Bool)
    (now : Int) : Option (HotSpotCache × Bool × Option RegionStat) :=
  w.check .readFlow region region.readBytes (calculateReadHotThreshold totalBytesReadRate) simulating now

/-- `Update`. -/
def update (w : HotSpotCache) (key : UInt64) (item : Option RegionStat) (kind : FlowKind) : HotSpotCache :=
  match item with
  | none => w.setFlow kind ((w.flow kind).remove key)
  | some item => w.setFlow kind ((w.flow kind).put key item)

/-- `RegionStats`. -/
def regionStats (w : HotSpotCache) (kind : FlowKind) : List RegionStat :=
  (w.flow kind).elems.map Item.value

/-- `isRegionHot`. -/
def isRegionHot (w : HotSpotCache) (id : UInt64) (hotThreshold : Int) : Bool :=
  let writeHot := match w.writeFlow.peek id with
    | some stat => decide (stat.hotDegree ≥ hotThreshold)
    | none => false
  writeHot || match w.readFlow.peek id with
    | some stat => decide (stat.hotDegree ≥ hotThreshold)
    | none => false

/-! ## The invariant -/

/-- Both caches are valid 2Q caches, every window is well-formed, and every
stored record is well-formed. -/
structure Valid (w : HotSpotCache) : Prop where
  flow : ∀ kind, (w.flow kind).Valid
  heap : HeapWF w.rollingStats
  stored : ∀ kind, TwoQueue.AllStored (RegionStat.WellFormed w.rollingStats.length) (w.flow kind)

/-- What a check returns from a valid cache: a valid cache whose caches are
unchanged and whose heap only grew, and a well-formed record to store
whenever the flag is set. -/
structure CheckResult (w : HotSpotCache) (res : HotSpotCache × Bool × Option RegionStat) : Prop where
  valid : res.1.Valid
  flow : ∀ kind, res.1.flow kind = w.flow kind
  length_le : w.rollingStats.length ≤ res.1.rollingStats.length
  item : res.2.1 = true → ∀ s, res.2.2 = some s → s.WellFormed res.1.rollingStats.length

variable {w : HotSpotCache}

@[simp] theorem flow_setFlow_self (kind : FlowKind) (c : TwoQueue RegionStat) :
    (w.setFlow kind c).flow kind = c := by
  cases kind <;> rfl

@[simp] theorem flow_setFlow_ne {kind kind' : FlowKind} (hne : kind' ≠ kind) (c : TwoQueue RegionStat) :
    (w.setFlow kind c).flow kind' = w.flow kind' := by
  cases kind <;> cases kind' <;> first | rfl | exact absurd rfl hne

@[simp] theorem rollingStats_setFlow (kind : FlowKind) (c : TwoQueue RegionStat) :
    (w.setFlow kind c).rollingStats = w.rollingStats := by
  cases kind <;> rfl

theorem valid_newHotSpotCache : newHotSpotCache.Valid where
  flow kind := by
    cases kind <;> exact TwoQueue.valid_newTwoQueue (by decide)
  heap _ h := absurd h List.not_mem_nil
  stored kind := by
    cases kind <;> exact TwoQueue.allStored_newTwoQueue _ _

/-- A heap that keeps every window and adds well-formed ones keeps the cache
valid. -/
theorem Valid.withHeap (h : w.Valid) {heap : List RollingStats} (hwf : HeapWF heap)
    (hlen : w.rollingStats.length ≤ heap.length) : Valid { w with rollingStats := heap } where
  flow := h.flow
  heap := hwf
  stored kind x hx := (h.stored kind x hx).mono hlen

theorem Valid.checkResult_self (h : w.Valid) (b : Bool) :
    CheckResult w (w, b, none) :=
  ⟨h, fun _ => rfl, le_rfl, fun _ _ hs => by cases hs⟩

/-- The record `isNeedUpdateStatCache` builds before it looks at the flow. -/
theorem newRegionStat_antiCount (region : RegionInfo) (flowBytes : UInt64) (now : Int) :
    (newRegionStat region flowBytes hotRegionAntiCount now).antiCount = hotRegionAntiCount := rfl

/-- A hot report: the record gets the full anti count, and its window the
reading. -/
theorem Valid.isNeedUpdateStatCache_hot (h : w.Valid) {region : RegionInfo} {flowBytes thr : UInt64}
    {oldItem : Option RegionStat} {now : Int} (hthr : flowBytes ≥ thr)
    (hold : ∀ old, oldItem = some old → old.WellFormed w.rollingStats.length) :
    ∃ res, w.isNeedUpdateStatCache region flowBytes thr oldItem now = some res ∧ CheckResult w res := by
  cases oldItem with
  | none =>
      -- a new window at the end of the heap
      obtain ⟨s, hs, hswf⟩ := RollingStats.wf_newRollingStats (show (0 : Int) < rollingWindowsSize by decide)
      have hheap₁ : HeapWF (w.rollingStats ++ [s]) := h.heap.append hswf
      obtain ⟨heap, hadd, hheap, hlen⟩ := hheap₁.addAt
        (show w.rollingStats.length < (w.rollingStats ++ [s]).length by simp) flowBytes.toFloat
      have hlen' : heap.length = w.rollingStats.length + 1 := by simp [hlen]
      have heq : w.isNeedUpdateStatCache region flowBytes thr none now =
          some ({ w with rollingStats := heap }, true,
            some { newRegionStat region flowBytes hotRegionAntiCount now with stats := some w.rollingStats.length }) := by
        simp only [isNeedUpdateStatCache, if_pos hthr, hs, Option.map_some, Option.pure_def,
          Option.bind_eq_bind, Option.bind_some]
        rw [hadd]
        rfl
      refine ⟨_, heq, h.withHeap hheap (by omega), fun _ => rfl, by simp only; omega, ?_⟩
      rintro - s' hs'
      cases hs'
      exact ⟨⟨w.rollingStats.length, rfl, by simp only; omega⟩,
        show (0 : Int) ≤ hotRegionAntiCount by decide, le_rfl,
        show hotRegionAntiCount - hotRegionAntiCount ≤ (0 : Int) by decide⟩
  | some old =>
      -- the old window gets the reading
      obtain ⟨p, hp, hlt⟩ := (hold old rfl).stats
      obtain ⟨heap, hadd, hheap, hlen⟩ := h.heap.addAt hlt flowBytes.toFloat
      have hdeg := (hold old rfl).hotDegree_ge_neg_one
      have heq : w.isNeedUpdateStatCache region flowBytes thr (some old) now =
          some ({ w with rollingStats := heap }, true,
            some { newRegionStat region flowBytes hotRegionAntiCount now with
              hotDegree := old.hotDegree + 1, stats := old.stats }) := by
        simp only [isNeedUpdateStatCache, if_pos hthr, hp, Option.pure_def, Option.bind_eq_bind,
          Option.bind_some]
        rw [hadd]
        rfl
      refine ⟨_, heq, h.withHeap hheap hlen.ge, fun _ => rfl, hlen.ge, ?_⟩
      rintro - s' hs'
      cases hs'
      refine ⟨⟨p, hp, by simp only; omega⟩, show (0 : Int) ≤ hotRegionAntiCount by decide, le_rfl, ?_⟩
      show hotRegionAntiCount - hotRegionAntiCount ≤ old.hotDegree + 1
      omega

/-- A cold report: nothing for a record not in the cache, a removal once the
anti count is spent, and one unit of it spent otherwise. -/
theorem Valid.isNeedUpdateStatCache_cold (h : w.Valid) {region : RegionInfo} {flowBytes thr : UInt64}
    {oldItem : Option RegionStat} {now : Int} (hthr : ¬ flowBytes ≥ thr)
    (hold : ∀ old, oldItem = some old → old.WellFormed w.rollingStats.length) :
    ∃ res, w.isNeedUpdateStatCache region flowBytes thr oldItem now = some res ∧ CheckResult w res := by
  cases oldItem with
  | none =>
      -- a cold region new to the cache is not stored: the flag is off
      refine ⟨(w, false, some (newRegionStat region flowBytes hotRegionAntiCount now)), ?_,
        ⟨h, fun _ => rfl, le_rfl, fun hb => absurd hb Bool.false_ne_true⟩⟩
      simp only [isNeedUpdateStatCache, if_neg hthr]
  | some old =>
      by_cases hspent : old.antiCount ≤ 0
      · refine ⟨(w, true, none), ?_, h.checkResult_self true⟩
        simp only [isNeedUpdateStatCache, if_neg hthr, if_pos hspent]
      · obtain ⟨p, hp, hlt⟩ := (hold old rfl).stats
        obtain ⟨heap, hadd, hheap, hlen⟩ := h.heap.addAt hlt flowBytes.toFloat
        have hle := (hold old rfl).antiCount_le
        have hdeg := (hold old rfl).hotDegree_ge
        have heq : w.isNeedUpdateStatCache region flowBytes thr (some old) now =
            some ({ w with rollingStats := heap }, true,
              some { newRegionStat region flowBytes hotRegionAntiCount now with
                hotDegree := old.hotDegree - 1, antiCount := old.antiCount - 1, stats := old.stats }) := by
          simp only [isNeedUpdateStatCache, if_neg hthr, if_neg hspent, hp]
          rw [hadd]
          rfl
        refine ⟨_, heq, h.withHeap hheap hlen.ge, fun _ => rfl, hlen.ge, ?_⟩
        rintro - s' hs'
        cases hs'
        refine ⟨⟨p, hp, by simp only; omega⟩, ?_, ?_, ?_⟩
        · show 0 ≤ old.antiCount - 1
          omega
        · show old.antiCount - 1 ≤ hotRegionAntiCount
          omega
        · -- the hot degree falls with the anti count
          show old.antiCount - 1 - hotRegionAntiCount ≤ old.hotDegree - 1
          omega

theorem Valid.isNeedUpdateStatCache (h : w.Valid) (region : RegionInfo) (flowBytes thr : UInt64)
    {oldItem : Option RegionStat} (now : Int)
    (hold : ∀ old, oldItem = some old → old.WellFormed w.rollingStats.length) :
    ∃ res, w.isNeedUpdateStatCache region flowBytes thr oldItem now = some res ∧ CheckResult w res := by
  by_cases hthr : flowBytes ≥ thr
  · exact h.isNeedUpdateStatCache_hot hthr hold
  · exact h.isNeedUpdateStatCache_cold hthr hold

/-- A stored record is well-formed. -/
theorem Valid.peek_wellFormed (h : w.Valid) {kind : FlowKind} {id : UInt64} {value : RegionStat}
    (hpeek : (w.flow kind).peek id = some value) : value.WellFormed w.rollingStats.length :=
  h.stored kind (id, value) ((h.flow kind).peek_eq_some hpeek)

/-- A check on a valid cache never panics, and what it returns is a
`CheckResult`. -/
theorem Valid.check (h : w.Valid) (kind : FlowKind) (region : RegionInfo) (bytes thr : UInt64)
    (simulating : Bool) (now : Int) :
    ∃ res, w.check kind region bytes thr simulating now = some res ∧ CheckResult w res := by
  dsimp only [HotSpotCache.check]
  split
  · exact h.isNeedUpdateStatCache region _ thr now (fun _ hold => by cases hold)
  · next value hpeek =>
      -- the old record is the stored one, hence well-formed
      have hold : ∀ old, some value = some old → old.WellFormed w.rollingStats.length := by
        rintro old ⟨⟩
        exact h.peek_wellFormed hpeek
      split
      · exact h.isNeedUpdateStatCache region _ thr now hold
      · split
        · exact ⟨_, rfl, h.checkResult_self false⟩
        · exact h.isNeedUpdateStatCache region _ thr now hold

theorem Valid.checkWrite (h : w.Valid) (region : RegionInfo) (totalBytesWriteRate : Float)
    (simulating : Bool) (now : Int) :
    ∃ res, w.checkWrite region totalBytesWriteRate simulating now = some res ∧ CheckResult w res :=
  h.check .writeFlow region _ _ simulating now

theorem Valid.checkRead (h : w.Valid) (region : RegionInfo) (totalBytesReadRate : Float)
    (simulating : Bool) (now : Int) :
    ∃ res, w.checkRead region totalBytesReadRate simulating now = some res ∧ CheckResult w res :=
  h.check .readFlow region _ _ simulating now

/-- Replacing the cache of one kind by a valid cache of well-formed records. -/
theorem Valid.setFlow (h : w.Valid) (kind : FlowKind) {c : TwoQueue RegionStat} (hc : c.Valid)
    (hs : TwoQueue.AllStored (RegionStat.WellFormed w.rollingStats.length) c) :
    (w.setFlow kind c).Valid where
  flow kind' := by
    by_cases hk : kind' = kind
    · subst hk
      rw [flow_setFlow_self]
      exact hc
    · rw [flow_setFlow_ne hk]
      exact h.flow kind'
  heap := by
    rw [rollingStats_setFlow]
    exact h.heap
  stored kind' := by
    rw [rollingStats_setFlow]
    by_cases hk : kind' = kind
    · subst hk
      rw [flow_setFlow_self]
      exact hs
    · rw [flow_setFlow_ne hk]
      exact h.stored kind'

/-- `Update` with a well-formed record, or a removal, keeps the cache valid. -/
theorem Valid.update (h : w.Valid) (key : UInt64) {item : Option RegionStat} (kind : FlowKind)
    (hitem : ∀ s, item = some s → s.WellFormed w.rollingStats.length) : (w.update key item kind).Valid := by
  cases item with
  | none =>
      obtain ⟨hvalid, hsub⟩ := (h.flow kind).remove key
      exact h.setFlow kind hvalid ((h.stored kind).of_sub hsub)
  | some s =>
      obtain ⟨hvalid, hwithin⟩ := (h.flow kind).put key s
      exact h.setFlow kind hvalid ((h.stored kind).of_within hwithin (hitem s rfl))

@[simp] theorem rollingStats_update (key : UInt64) (item : Option RegionStat) (kind : FlowKind) :
    (w.update key item kind).rollingStats = w.rollingStats := by
  cases item <;> exact rollingStats_setFlow kind _

end HotSpotCache

end Schedule

end PlacementDriver
