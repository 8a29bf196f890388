import PlacementDriver.Server.Heartbeat

/-!
# Stale heartbeats

`handleRegionHeartbeat` compares a heartbeat's epoch with the cached region of
the same id only. A heartbeat older than that region is rejected with
`ErrRegionIsStale` and writes neither the region cache nor the KV store
(`Valid.handleRegionHeartbeat_stale`).

A region whose id is no longer cached is new to the function, whatever the
regions it overlaps. After a split, the right half gets a new id; once its
heartbeat has replaced the parent in the cache, a delayed heartbeat of the
parent finds no region of its id, is accepted, and `SetRegion` evicts the
newer half: the cache and the KV store go back to the older epoch
(`stale_parent_overwrites_split_child`).
-/

namespace PlacementDriver

namespace Server

open Metapb Schedule RegionsInfo

namespace ClusterInfo

variable {c : ClusterInfo} {region : RegionInfo}

/-- A heartbeat older than the cached region of its id is rejected and writes
neither the region cache nor the KV store. -/
theorem Valid.handleRegionHeartbeat_stale (h : c.Valid) {origin : RegionInfo}
    (horigin : c.regions.getRegion region.getID = some origin)
    (hstale : region.regionMeta.regionEpoch.version < origin.regionMeta.regionEpoch.version ∨
      region.regionMeta.regionEpoch.confVer < origin.regionMeta.regionEpoch.confVer)
    (simulating : Bool) (env : Env) :
    ∃ c', c.handleRegionHeartbeat simulating env region =
        some (c', some (.regionIsStale region.regionMeta origin.regionMeta)) ∧
      c'.regions = c.regions ∧ c'.kv = c.kv := by
  obtain ⟨⟨hot₁, isWriteUpdate, writeItem⟩, hres₁, hcheck₁⟩ :=
    h.hotCache.checkWrite region env.totalBytesWriteRate simulating env.now
  obtain ⟨⟨hot₂, isReadUpdate, readItem⟩, hres₂, -⟩ :=
    hcheck₁.valid.checkRead region env.totalBytesReadRate simulating env.now
  have hflags : heartbeatFlags (some origin) region = .error (.regionIsStale region.regionMeta origin.regionMeta) := by
    simp only [heartbeatFlags, if_pos hstale]
  rw [handleRegionHeartbeat_eq hres₁ hres₂, horigin, saveHeartbeat_stale hflags]
  exact ⟨_, rfl, rfl, rfl⟩

/-- A heartbeat saved to the region cache leaves the cache `SetRegion` returns
and the KV store without the overlapped regions. -/
theorem Valid.handleRegionHeartbeat_saveCache (h : c.Valid) (hw : region.WellFormed) {saveKV isNew : Bool}
    (hflags : heartbeatFlags (c.regions.getRegion region.getID) region = .ok (saveKV, true, isNew))
    {regions : RegionsInfo} {overlaps : List Region} (hset : c.regions.setRegion region = some (regions, overlaps))
    (simulating : Bool) (env : Env) :
    ∃ c', c.handleRegionHeartbeat simulating env region = some (c', none) ∧ c'.Valid ∧ c'.regions = regions ∧
      c'.kv = ((if saveKV then c.kv.map (saveRegion · region.regionMeta) else c.kv).map
        (overlaps.foldl deleteRegion ·)) := by
  obtain ⟨c', err, hstep, hvalid⟩ := h.handleRegionHeartbeat hw simulating env
  -- the same call, read through its checks
  obtain ⟨⟨hot₁, isWriteUpdate, writeItem⟩, hres₁, hcheck₁⟩ :=
    h.hotCache.checkWrite region env.totalBytesWriteRate simulating env.now
  obtain ⟨⟨hot₂, isReadUpdate, readItem⟩, hres₂, -⟩ :=
    hcheck₁.valid.checkRead region env.totalBytesReadRate simulating env.now
  obtain ⟨c'', hsave, hregions, hkv⟩ := saveHeartbeat_saveCache { c with hotCache := hot₂ } hflags hset
    isWriteUpdate writeItem isReadUpdate readItem
  rw [handleRegionHeartbeat_eq hres₁ hres₂, hsave] at hstep
  obtain ⟨rfl, rfl⟩ := Prod.mk.inj (Option.some.inj hstep)
  exact ⟨c'', by rw [handleRegionHeartbeat_eq hres₁ hres₂, hsave], hvalid, hregions, hkv⟩

end ClusterInfo

/-! ## A delayed heartbeat from before a split -/

/-- A region of id 1 over `[[1], [3])` at version 1, on store 1. -/
def splitParent : RegionInfo := ⟨⟨1, [1], [3], ⟨1, 1⟩, [⟨1, 1, false⟩]⟩, some ⟨1, 1, false⟩, [], [], 0, 0, 0, 0⟩

/-- The right half `[[2], [3])` of `splitParent` after a split: id 2, version 2. -/
def splitChild : RegionInfo := ⟨⟨2, [2], [3], ⟨1, 2⟩, [⟨2, 1, false⟩]⟩, some ⟨2, 1, false⟩, [], [], 0, 0, 0, 0⟩

theorem wellFormed_splitParent : splitParent.WellFormed :=
  ⟨.inl (by decide), by decide, by decide, ⟨⟨1, 1, false⟩, rfl, by decide⟩, fun _ hp => absurd hp List.not_mem_nil⟩

theorem wellFormed_splitChild : splitChild.WellFormed :=
  ⟨.inl (by decide), by decide, by decide, ⟨⟨2, 1, false⟩, rfl, by decide⟩, fun _ hp => absurd hp List.not_mem_nil⟩

/-- The region cache, and the overlaps, after `splitParent`. -/
def cacheAfterParent : RegionsInfo × List Region := (newRegionsInfo.setRegion splitParent).get (by decide)

/-- The region cache, and the overlaps, after `splitParent` then `splitChild`. -/
def cacheAfterChild : RegionsInfo × List Region := (cacheAfterParent.1.setRegion splitChild).get (by decide)

/-- The region cache, and the overlaps, after `splitParent` again. -/
def cacheAfterStale : RegionsInfo × List Region := (cacheAfterChild.1.setRegion splitParent).get (by decide)

theorem setRegion_splitParent : newRegionsInfo.setRegion splitParent = some cacheAfterParent := by
  unfold cacheAfterParent
  exact (Option.some_get _).symm

theorem setRegion_splitChild : cacheAfterParent.1.setRegion splitChild = some cacheAfterChild := by
  unfold cacheAfterChild
  exact (Option.some_get _).symm

theorem setRegion_stale : cacheAfterChild.1.setRegion splitParent = some cacheAfterStale := by
  unfold cacheAfterStale
  exact (Option.some_get _).symm

theorem heartbeatFlags_none (region : RegionInfo) : heartbeatFlags none region = .ok (true, true, true) := rfl

/-- After a split, a delayed heartbeat of the parent is accepted, and the key
`[2]` that the version-2 child covered is covered by the version-1 parent
again, in the region cache and in the KV store. -/
theorem stale_parent_overwrites_split_child (simulating : Bool) (env₁ env₂ env₃ : Env) :
    ∃ c₁ c₂ c₃ e₁ e₂,
      (newClusterInfo (some ∅)).handleRegionHeartbeat simulating env₁ splitParent = some (c₁, e₁) ∧
      c₁.handleRegionHeartbeat simulating env₂ splitChild = some (c₂, e₂) ∧
      c₂.handleRegionHeartbeat simulating env₃ splitParent = some (c₃, none) ∧
      (c₂.regions.searchRegion [2]).map (·.regionMeta.regionEpoch.version) = some 2 ∧
      (c₃.regions.searchRegion [2]).map (·.regionMeta.regionEpoch.version) = some 1 ∧
      c₃.kv.bind (·.lookup splitChild.getID) = none ∧
      c₃.kv.bind (·.lookup splitParent.getID) = some splitParent.regionMeta := by
  -- the parent, new to the cache
  obtain ⟨c₁, hstep₁, hvalid₁, hregions₁, hkv₁⟩ :=
    (ClusterInfo.valid_newClusterInfo (some ∅)).handleRegionHeartbeat_saveCache wellFormed_splitParent
      (heartbeatFlags_none splitParent) setRegion_splitParent simulating env₁
  -- its right half, whose id is new too: the parent is evicted
  have hnone₂ : c₁.regions.getRegion splitChild.getID = none := by
    rw [hregions₁]
    decide
  obtain ⟨c₂, hstep₂, hvalid₂, hregions₂, hkv₂⟩ :=
    hvalid₁.handleRegionHeartbeat_saveCache wellFormed_splitChild (hnone₂ ▸ heartbeatFlags_none splitChild)
      (by rw [hregions₁]; exact setRegion_splitChild) simulating env₂
  -- the delayed parent: no region of its id is cached, so it is not stale
  have hnone₃ : c₂.regions.getRegion splitParent.getID = none := by
    rw [hregions₂]
    decide
  obtain ⟨c₃, hstep₃, -, hregions₃, hkv₃⟩ :=
    hvalid₂.handleRegionHeartbeat_saveCache wellFormed_splitParent (hnone₃ ▸ heartbeatFlags_none splitParent)
      (by rw [hregions₂]; exact setRegion_stale) simulating env₃
  refine ⟨c₁, c₂, c₃, none, none, hstep₁, hstep₂, hstep₃, ?_, ?_, ?_, ?_⟩
  · rw [hregions₂]
    decide
  · rw [hregions₃]
    decide
  · rw [hkv₃, hkv₂, hkv₁]
    decide
  · rw [hkv₃, hkv₂, hkv₁]
    decide

end Server

end PlacementDriver
