import PlacementDriver.Core.RegionsInfoInvariant
import PlacementDriver.Schedule.HotCache

/-!
# Region heartbeats

`clusterInfo.handleRegionHeartbeat` (in `server/cluster_info.go`) is how PD
learns of regions. Under the read lock it looks up the cached region of the
heartbeat's id (`origin`) and checks the heartbeat against the hot-spot cache
(`CheckWriteStatus`, `CheckReadStatus`). It then rejects a heartbeat whose
epoch is older than `origin`'s, decides whether to save the region to the KV
store and to the region cache, and under the write lock calls `SetRegion`,
deletes the overlapped regions from the KV store, and updates the hot-spot
cache with the checked records whose flag is set.

We model the cluster state the function writes: the region cache, the hot-spot
cache and the KV store (`c.kv`, nil when PD runs without one), the KV store
as the region metas saved under their ids. `Simulating`, `time.Now()` and the
stores' total flow rates are inputs. Left out are the writes the function makes
to state nothing here reads: the prepare checker, the region and label
statistics, the store counters, the `changedRegions` channel and the logs. A
failed KV write is only logged by the source; KV writes succeed here.

`handleRegionHeartbeat` splits at the read lock: the checks, then
`saveHeartbeat`. The checks may write through shared windows of the hot-spot
cache, and those writes stay even when the heartbeat is rejected.

## Main results

* `Valid.handleRegionHeartbeat`: from a consistent region cache and a valid
  hot-spot cache, a heartbeat of a well-formed region never panics and keeps
  both, so along every run (`valid_run`).
* `saveHeartbeat_stale`, `saveHeartbeat_saveCache`: what the epoch check and
  `SetRegion` make of the region cache and the KV store.
-/

namespace PlacementDriver

namespace Server

open Schedule RegionsInfo

/-- The KV store's region metas, by region id (`regionPath(id)`). -/
abbrev RegionKV := AList (fun _ : UInt64 => Metapb.Region)

/-- `kv.SaveRegion(meta)`. -/
def saveRegion (kv : RegionKV) (regionMeta : Metapb.Region) : RegionKV := kv.insert regionMeta.id regionMeta

/-- `kv.DeleteRegion(meta)`. -/
def deleteRegion (kv : RegionKV) (regionMeta : Metapb.Region) : RegionKV := kv.erase regionMeta.id

/-- The state of `clusterInfo` that `handleRegionHeartbeat` reads and writes. -/
structure ClusterInfo where
  /-- `c.core.Regions`. -/
  regions : RegionsInfo
  /-- `c.core.HotCache`. -/
  hotCache : HotSpotCache
  /-- `c.kv`. -/
  kv : Option RegionKV

/-- `newClusterInfo(id, opt, kv)`, with the `BasicCluster` it makes. -/
def newClusterInfo (kv : Option RegionKV) : ClusterInfo := ⟨newRegionsInfo, HotSpotCache.newHotSpotCache, kv⟩

/-- What a heartbeat reads besides the region: `time.Now()` in nanoseconds and
`stores.TotalBytesWriteRate()`, `stores.TotalBytesReadRate()`. -/
structure Env where
  now : Int
  totalBytesWriteRate : Float
  totalBytesReadRate : Float

/-- The error `handleRegionHeartbeat` returns. -/
inductive HeartbeatError where
  /-- `ErrRegionIsStale(region.GetMeta(), origin.GetMeta())`. -/
  | regionIsStale (region origin : Metapb.Region)
deriving DecidableEq, Repr

/-- The epoch check of `handleRegionHeartbeat` and its flags `saveKV`,
`saveCache`, `isNew`. -/
def heartbeatFlags (origin : Option RegionInfo) (region : RegionInfo) :
    Except HeartbeatError (Bool × Bool × Bool) :=
  match origin with
  | none => .ok (true, true, true)
  | some origin =>
      let r := region.regionMeta.regionEpoch
      let o := origin.regionMeta.regionEpoch
      if r.version < o.version ∨ r.confVer < o.confVer then
        .error (.regionIsStale region.regionMeta origin.regionMeta)
      else
        -- a new version, conf version or peer count is saved to the KV store
        let saveKV := decide (r.version > o.version) || decide (r.confVer > o.confVer) ||
          region.getPeers.length != origin.getPeers.length
        let leaderChanged := region.leaderId != origin.leaderId
        let saveCache := saveKV || leaderChanged ||
          !region.downPeers.isEmpty || !region.pendingPeers.isEmpty ||
          !origin.downPeers.isEmpty || !origin.pendingPeers.isEmpty ||
          region.approximateSize != origin.approximateSize ||
          region.approximateKeys != origin.approximateKeys
        .ok (saveKV, saveCache, leaderChanged && origin.leaderId == 0)

namespace ClusterInfo

/-- The part of `handleRegionHeartbeat` after the read lock. -/
def saveHeartbeat (c : ClusterInfo) (region : RegionInfo) (origin : Option RegionInfo)
    (isWriteUpdate : Bool) (writeItem : Option RegionStat) (isReadUpdate : Bool)
    (readItem : Option RegionStat) : Option (ClusterInfo × Option HeartbeatError) :=
  match heartbeatFlags origin region with
  | .error e => some (c, some e)
  | .ok (saveKV, saveCache, isNew) =>
      let c := if saveKV then { c with kv := c.kv.map (saveRegion · region.regionMeta) } else c
      if !isWriteUpdate && !isReadUpdate && !saveCache && !isNew then some (c, none)
      else do
        let c ← if saveCache then
            (c.regions.setRegion region).map fun (regions, overlaps) =>
              { c with regions := regions, kv := c.kv.map (overlaps.foldl deleteRegion ·) }
          else some c
        let key := region.getID
        let c := if isWriteUpdate then { c with hotCache := c.hotCache.update key writeItem .writeFlow } else c
        let c := if isReadUpdate then { c with hotCache := c.hotCache.update key readItem .readFlow } else c
        pure (c, none)

/-- `handleRegionHeartbeat`; a panic is `none`. -/
def handleRegionHeartbeat (simulating : Bool) (c : ClusterInfo) (env : Env) (region : RegionInfo) :
    Option (ClusterInfo × Option HeartbeatError) := do
  let origin := c.regions.getRegion region.getID
  let (hot, isWriteUpdate, writeItem) ← c.hotCache.checkWrite region env.totalBytesWriteRate simulating env.now
  let (hot, isReadUpdate, readItem) ← hot.checkRead region env.totalBytesReadRate simulating env.now
  { c with hotCache := hot }.saveHeartbeat region origin isWriteUpdate writeItem isReadUpdate readItem

/-- A sequence of heartbeats; a rejected one leaves what its checks wrote. -/
def run (simulating : Bool) (c : ClusterInfo) : List (Env × RegionInfo) → Option ClusterInfo
  | [] => some c
  | (env, region) :: rest =>
      match handleRegionHeartbeat simulating c env region with
      | some (c, _) => run simulating c rest
      | none => none

/-! ## The checks, then the writes -/

variable {c : ClusterInfo} {simulating : Bool} {env : Env} {region : RegionInfo}

theorem handleRegionHeartbeat_eq {hot₁ hot₂ : HotSpotCache} {isWriteUpdate isReadUpdate : Bool}
    {writeItem readItem : Option RegionStat}
    (hw : c.hotCache.checkWrite region env.totalBytesWriteRate simulating env.now =
      some (hot₁, isWriteUpdate, writeItem))
    (hr : hot₁.checkRead region env.totalBytesReadRate simulating env.now = some (hot₂, isReadUpdate, readItem)) :
    handleRegionHeartbeat simulating c env region =
      { c with hotCache := hot₂ }.saveHeartbeat region (c.regions.getRegion region.getID)
        isWriteUpdate writeItem isReadUpdate readItem := by
  simp only [handleRegionHeartbeat, hw, hr, Option.bind_eq_bind, Option.bind_some]

/-- A stale heartbeat changes nothing after the checks. -/
theorem saveHeartbeat_stale {origin : Option RegionInfo} {e : HeartbeatError}
    (hflags : heartbeatFlags origin region = .error e) (isWriteUpdate : Bool) (writeItem : Option RegionStat)
    (isReadUpdate : Bool) (readItem : Option RegionStat) :
    c.saveHeartbeat region origin isWriteUpdate writeItem isReadUpdate readItem = some (c, some e) := by
  simp only [saveHeartbeat, hflags]

/-- A heartbeat saved to the region cache: the cache is what `SetRegion`
returns, and the overlapped regions leave the KV store. -/
theorem saveHeartbeat_saveCache (c : ClusterInfo) {origin : Option RegionInfo} {saveKV isNew : Bool}
    (hflags : heartbeatFlags origin region = .ok (saveKV, true, isNew)) {regions : RegionsInfo}
    {overlaps : List Metapb.Region} (hset : c.regions.setRegion region = some (regions, overlaps))
    (isWriteUpdate : Bool) (writeItem : Option RegionStat) (isReadUpdate : Bool)
    (readItem : Option RegionStat) :
    ∃ c', c.saveHeartbeat region origin isWriteUpdate writeItem isReadUpdate readItem = some (c', none) ∧
      c'.regions = regions ∧
      c'.kv = ((if saveKV then c.kv.map (saveRegion · region.regionMeta) else c.kv).map
        (overlaps.foldl deleteRegion ·)) := by
  -- the cache write comes first; the hot-cache updates after it touch neither
  have hset' : (if saveKV then { c with kv := c.kv.map (saveRegion · region.regionMeta) } else c).regions.setRegion
      region = some (regions, overlaps) := by
    split_ifs <;> exact hset
  simp only [saveHeartbeat, hflags, Bool.not_true, Bool.and_false, Bool.false_and, Bool.false_eq_true,
    if_false, if_true, hset', Option.map_some, Option.bind_eq_bind, Option.bind_some, Option.pure_def]
  refine ⟨_, rfl, ?_, ?_⟩
  · split_ifs <;> rfl
  · split_ifs <;> rfl

/-! ## The invariant over runs -/

/-- The region cache is consistent and the hot-spot cache valid. -/
structure Valid (c : ClusterInfo) : Prop where
  regions : c.regions.Consistent
  hotCache : c.hotCache.Valid

theorem valid_newClusterInfo (kv : Option RegionKV) : (newClusterInfo kv).Valid :=
  ⟨consistent_newRegionsInfo, HotSpotCache.valid_newHotSpotCache⟩

/-- An update of the hot-spot cache with a record that is well-formed when its
flag is set. -/
theorem Valid.updateHot (h : c.Valid) (key : UInt64) {b : Bool} {item : Option RegionStat} (kind : FlowKind)
    (hitem : b = true → ∀ s, item = some s → s.WellFormed c.hotCache.rollingStats.length) :
    (if b = true then { c with hotCache := c.hotCache.update key item kind } else c).Valid ∧
      (if b = true then { c with hotCache := c.hotCache.update key item kind } else c).hotCache.rollingStats =
        c.hotCache.rollingStats := by
  split_ifs with hb
  · exact ⟨⟨h.regions, h.hotCache.update key kind (hitem hb)⟩, HotSpotCache.rollingStats_update key item kind⟩
  · exact ⟨h, rfl⟩

/-- The two hot-cache updates that end a saved heartbeat keep the invariant,
given records that are well-formed whenever their flag is set. -/
theorem Valid.hotUpdates (h : c.Valid) (key : UInt64) {isWriteUpdate isReadUpdate : Bool}
    {writeItem readItem : Option RegionStat}
    (hwrite : isWriteUpdate = true → ∀ s, writeItem = some s → s.WellFormed c.hotCache.rollingStats.length)
    (hread : isReadUpdate = true → ∀ s, readItem = some s → s.WellFormed c.hotCache.rollingStats.length) :
    Valid (let c := if isWriteUpdate then { c with hotCache := c.hotCache.update key writeItem .writeFlow } else c
      if isReadUpdate then { c with hotCache := c.hotCache.update key readItem .readFlow } else c) := by
  obtain ⟨hvalid, hrolling⟩ := h.updateHot key .writeFlow hwrite
  refine (hvalid.updateHot key .readFlow ?_).1
  rw [hrolling]
  exact hread

/-- The writes after the checks keep the invariant, given records that are
well-formed whenever their flag is set. -/
theorem Valid.saveHeartbeat (h : c.Valid) (hw : region.WellFormed) (origin : Option RegionInfo)
    {isWriteUpdate isReadUpdate : Bool} {writeItem readItem : Option RegionStat}
    (hwrite : isWriteUpdate = true → ∀ s, writeItem = some s → s.WellFormed c.hotCache.rollingStats.length)
    (hread : isReadUpdate = true → ∀ s, readItem = some s → s.WellFormed c.hotCache.rollingStats.length) :
    ∃ c' err, c.saveHeartbeat region origin isWriteUpdate writeItem isReadUpdate readItem = some (c', err) ∧
      c'.Valid := by
  unfold ClusterInfo.saveHeartbeat
  split
  · exact ⟨c, _, rfl, h⟩
  · next saveKV saveCache isNew _ =>
      -- saving to the KV store touches neither cache
      obtain ⟨c₁, hc₁, hvalid₁⟩ : ∃ c₁, (if saveKV then { c with kv := c.kv.map (saveRegion · region.regionMeta) }
          else c) = c₁ ∧ c₁.Valid := by
        split_ifs
        · exact ⟨_, rfl, h.regions, h.hotCache⟩
        · exact ⟨c, rfl, h⟩
      have hrolling : c₁.hotCache.rollingStats = c.hotCache.rollingStats := by
        rw [← hc₁]
        split_ifs <;> rfl
      simp only [hc₁]
      have hwrite₁ : isWriteUpdate = true → ∀ s, writeItem = some s →
          s.WellFormed c₁.hotCache.rollingStats.length := by
        rw [hrolling]
        exact hwrite
      have hread₁ : isReadUpdate = true → ∀ s, readItem = some s →
          s.WellFormed c₁.hotCache.rollingStats.length := by
        rw [hrolling]
        exact hread
      by_cases hquiet : (!isWriteUpdate && !isReadUpdate && !saveCache && !isNew) = true
      · rw [if_pos hquiet]
        exact ⟨c₁, none, rfl, hvalid₁⟩
      · rw [if_neg hquiet]
        cases saveCache with
        | false => exact ⟨_, none, rfl, hvalid₁.hotUpdates region.getID hwrite₁ hread₁⟩
        | true =>
            -- `SetRegion` of a well-formed region keeps the region cache consistent
            obtain ⟨r', overlaps, hset, hcons, -⟩ := hvalid₁.regions.setRegion hw
            have hvalid₂ : Valid { c₁ with regions := r', kv := c₁.kv.map (overlaps.foldl deleteRegion ·) } :=
              ⟨hcons, hvalid₁.hotCache⟩
            simp only [if_true, hset, Option.map_some]
            exact ⟨_, none, rfl, hvalid₂.hotUpdates region.getID hwrite₁ hread₁⟩

/-- A heartbeat of a well-formed region never panics and keeps the invariant. -/
theorem Valid.handleRegionHeartbeat (h : c.Valid) (hw : region.WellFormed) (simulating : Bool) (env : Env) :
    ∃ c' err, c.handleRegionHeartbeat simulating env region = some (c', err) ∧ c'.Valid := by
  -- the checks return a valid hot-spot cache and well-formed records
  obtain ⟨⟨hot₁, isWriteUpdate, writeItem⟩, hres₁, hcheck₁⟩ :=
    h.hotCache.checkWrite region env.totalBytesWriteRate simulating env.now
  obtain ⟨⟨hot₂, isReadUpdate, readItem⟩, hres₂, hcheck₂⟩ :=
    hcheck₁.valid.checkRead region env.totalBytesReadRate simulating env.now
  rw [handleRegionHeartbeat_eq hres₁ hres₂]
  have hvalid₂ : Valid { c with hotCache := hot₂ } := ⟨h.regions, hcheck₂.valid⟩
  refine hvalid₂.saveHeartbeat hw _ (fun hb s hs => ?_) hcheck₂.item
  -- the write record was checked against the smaller heap of the first check
  exact (hcheck₁.item hb s hs).mono hcheck₂.length_le

/-- Every run of heartbeats of well-formed regions keeps the invariant. -/
theorem Valid.run (h : c.Valid) (simulating : Bool) (events : List (Env × RegionInfo))
    (hw : ∀ e ∈ events, e.2.WellFormed) : ∃ c', c.run simulating events = some c' ∧ c'.Valid := by
  induction events generalizing c with
  | nil => exact ⟨c, rfl, h⟩
  | cons e events ih =>
      obtain ⟨env, region⟩ := e
      obtain ⟨c₁, err, hstep, hvalid₁⟩ :=
        h.handleRegionHeartbeat (hw _ List.mem_cons_self) simulating env
      obtain ⟨c', hrun, hvalid'⟩ := ih hvalid₁ (fun e he => hw e (List.mem_cons_of_mem _ he))
      refine ⟨c', ?_, hvalid'⟩
      simp only [ClusterInfo.run, hstep, hrun]

/-- Every record the hot-spot cache holds after any run of heartbeats points to
a well-formed window, whose `Add` and `Median` never panic, and has
`0 ≤ AntiCount ≤ hotRegionAntiCount` and `HotDegree ≥ -1`. -/
theorem hotCache_stored_wellFormed (simulating : Bool) (kv : Option RegionKV) (events : List (Env × RegionInfo))
    (hw : ∀ e ∈ events, e.2.WellFormed) :
    ∃ c, (newClusterInfo kv).run simulating events = some c ∧
      ∀ kind, ∀ x ∈ (c.hotCache.flow kind).view,
        ∃ p r, x.2.stats = some p ∧ c.hotCache.rollingStats[p]? = some r ∧
          (∀ n, (r.add n).isSome) ∧ (∀ statsMedian, (r.median statsMedian).isSome) ∧
          0 ≤ x.2.antiCount ∧ x.2.antiCount ≤ hotRegionAntiCount ∧ -1 ≤ x.2.hotDegree := by
  obtain ⟨c, hrun, hvalid⟩ := (valid_newClusterInfo kv).run simulating events hw
  refine ⟨c, hrun, fun kind x hx => ?_⟩
  have hstat := hvalid.hotCache.stored kind x hx
  obtain ⟨p, hp, hlt⟩ := hstat.stats
  have hr := List.getElem?_eq_getElem hlt
  have hwf := hvalid.hotCache.heap _ (List.getElem_mem hlt)
  refine ⟨p, _, hp, hr, fun n => ?_, hwf.median_isSome, hstat.antiCount_nonneg, hstat.antiCount_le,
    hstat.hotDegree_ge_neg_one⟩
  obtain ⟨r', hadd, -⟩ := hwf.add n
  rw [hadd]
  rfl

/-- Heartbeats of the bootstrap region and then of the two halves of its
split, the first of which overlaps the cached region. -/
def splitHeartbeats : List (Env × RegionInfo) :=
  [(⟨0, 0, 0⟩, firstRegion), (⟨1, 0, 0⟩, splitLeft), (⟨1, 0, 0⟩, splitRight)]

theorem hotCache_stored_wellFormed_splitHeartbeats :
    (∀ e ∈ splitHeartbeats, e.2.WellFormed) ∧ ∃ c, (newClusterInfo none).run false splitHeartbeats = some c := by
  have hw : ∀ e ∈ splitHeartbeats, e.2.WellFormed := by
    intro e he
    -- the regions of the heartbeats are those of the split
    exact wellFormed_of_mem_split (List.mem_map_of_mem (f := Prod.snd) he)
  obtain ⟨c, hrun, -⟩ := hotCache_stored_wellFormed false none _ hw
  exact ⟨hw, c, hrun⟩

end ClusterInfo

end Server

end PlacementDriver
