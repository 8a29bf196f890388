import PlacementDriver.Core.RegionKV
import PlacementDriver.Verified.Overlay

/-!
# Saving regions through the write buffer of `RegionKV`

`RegionKV` (`region_kv.go`) saves regions to a local LevelDB in batches.
`SaveRegion` puts the region into the map `batchRegions` under its path and
counts the call in `cacheSize`; the `batchSize`-th call since the last flush
flushes instead, and so does the loop of `backgroundFlush` once `flushTime`
has passed. `flush` hands the whole map to `SaveRegions`, which marshals each
region and writes them in one `leveldb.Batch`, then empties the map. A
`SaveRegion` that buffers moves `flushTime` to `flushRate` after now; one that
flushes leaves it.

`LeveldbKV` is the database as the write path sees it: the `KVBase` calls,
and `db.Write` of a batch of puts, over a state `σ`, failing with an `ε`;
`proto.Marshal` is the parameter `marshal`. `LeveldbKV.Lawful` says what
LevelDB does: the value under a key is `get s key`, a `Write` that succeeds
applies its puts and one that fails none (a batch is one journal record), and
a `Delete` removes its key. Times are nanoseconds, each `time.Now()` the `now`
of its event. The callers log the errors and go on (`handleRegionHeartbeat`,
the loop of `backgroundFlush`), so a run goes on from the state each event
leaves, whatever it returned. The loop of `backgroundFlush` reads `flushTime`
and calls `FlushRegion` under two different locks: a tick that finds the time
passed is a `FlushRegion` event, which may come after other events.

What the store holds, to a reader who knows the buffer, is `view`: the
database overlaid with the batch, marshalled. Saving through the buffer
differs from saving each region at once (`saveProto`, the path of
`KV.SaveRegion` without the region storage) as follows.

* Not in the view: every run of saves, flushes and ticks, whichever writes
  fail, leaves the view that of the store to which each save went directly. A
  failed flush keeps the batch, so no save is lost.
* A `DeleteRegion` goes to the database and not to the batch, so it does not
  remove a region whose save is still buffered: the next flush writes it back.
* While writes succeed, fewer than `batchSize` regions wait in the batch, and
  a tick `flushRate` after the last save writes them. While writes fail, the
  batch keeps every region saved.

## Main results

* `buffered_saves_agree_with_direct_saves`: the view after a run without
  deletes is the store of the direct saves.
* `delete_of_buffered_region_is_undone`: a delete of a region whose save is
  buffered leaves it in the view, and a flush writes it back.
* `batch_stays_below_batch_size`: with writes that succeed, every run from
  `NewRegionKV` keeps fewer than `defaultBatchSize` regions in the batch.
* `tick_after_flush_rate_writes_the_view`: a tick `flushRate` after every save
  of a run flushes, and a flush that succeeds leaves the database the view.
* `failed_writes_keep_every_saved_region`: while writes fail, the batch holds
  after any run the paths it held and those of the regions saved, no others.
-/

namespace PlacementDriver

open Metapb Verified.Overlay

/-- The calls of `leveldbKV` the region storage makes: those of `KVBase`, and
`db.Write` of a batch of puts. -/
structure LeveldbKV (σ ε : Type) extends KVBase σ ε where
  write : σ → List (String × String) → Except ε σ

variable {σ ε : Type}

/-- LevelDB with the value `get s key` under each key: a `Write` that succeeds
applies its puts in order, a `Delete` that succeeds removes its key. -/
structure LeveldbKV.Lawful (kv : LeveldbKV σ ε) (get : σ → String → Option String) : Prop where
  write : ∀ {s puts s'}, kv.write s puts = .ok s' → get s' = putAll (get s) puts
  delete : ∀ {s key s'}, kv.delete s key = .ok s' → get s' = Function.update (get s) key none

/-- The fields of `RegionKV` its write path reads and writes; `db` is the state
of the embedded `leveldbKV`, and times are nanoseconds. -/
structure RegionKV (σ : Type) where
  db : σ
  batchRegions : AList (fun _ : String => Region)
  batchSize : Int
  cacheSize : Int
  flushRate : Int
  flushTime : Int

/-- `defaultFlushRegionRate`, three seconds. -/
def defaultFlushRegionRate : Int := 3000000000

/-- `defaultBatchSize`. -/
def defaultBatchSize : Int := 100

/-- `NewRegionKV(path)` at time `now`, over the database `newLeveldbKV` opened. -/
def newRegionKV (db : σ) (now : Int) : RegionKV σ where
  db := db
  batchRegions := ∅
  batchSize := defaultBatchSize
  cacheSize := 0
  flushRate := defaultFlushRegionRate
  flushTime := now + defaultFlushRegionRate

section Write

variable (marshal : Region → Except ε String) (kv : LeveldbKV σ ε)

/-- `SaveRegions(regions)`: marshal every region of the map, then write them
in one batch. The map is ranged over in the order of its entries; its keys are
distinct, so the order does not change what the batch writes. -/
def saveRegions (s : σ) (regions : AList (fun _ : String => Region)) : Except ε σ := do
  let batch ← regions.entries.mapM fun r => do
    let value ← marshal r.2
    pure (r.1, value)
  kv.write s batch

namespace RegionKV

/-- `flush()`: a batch written is emptied; on an error nothing changes. -/
def flush (st : RegionKV σ) : Except ε Unit × RegionKV σ :=
  match saveRegions marshal kv st.db st.batchRegions with
  | .error e => (.error e, st)
  | .ok db => (.ok (), { st with db, cacheSize := 0, batchRegions := ∅ })

/-- `FlushRegion()`: `flush` under the lock. -/
def flushRegion (st : RegionKV σ) : Except ε Unit × RegionKV σ :=
  st.flush marshal kv

/-- `SaveRegion(region)` at time `now`. -/
def saveRegion (now : Int) (region : Region) (st : RegionKV σ) : Except ε Unit × RegionKV σ :=
  if st.cacheSize < st.batchSize - 1 then
    (.ok (), { st with
      batchRegions := st.batchRegions.insert (regionPath region.id) region
      cacheSize := st.cacheSize + 1
      flushTime := now + st.flushRate })
  else
    -- the region goes into the batch before the flush, which may fail
    flush marshal kv { st with batchRegions := st.batchRegions.insert (regionPath region.id) region }

/-- One tick of the loop of `backgroundFlush` at time `now`: `FlushRegion`
once `flushTime` is before `now`. -/
def backgroundFlushTick (now : Int) (st : RegionKV σ) : Except ε Unit × RegionKV σ :=
  if st.flushTime < now then st.flushRegion marshal kv else (.ok (), st)

/-- The calls that reach the region storage: `KV.SaveRegion` and
`KV.DeleteRegion` with the region storage on, `FlushRegion` (also that of
`Close`), and a tick of `backgroundFlush`. -/
inductive Event
  | saveRegion (now : Int) (region : Region)
  | deleteRegion (region : Region)
  | flushRegion
  | tick (now : Int)
deriving DecidableEq

/-- What one call does to the region storage. `KV.DeleteRegion` is
`deleteRegion(kv.regionKV, region)`, the `Delete` of the embedded
`leveldbKV`. -/
def step : Event → RegionKV σ → Except ε Unit × RegionKV σ
  | .saveRegion now region, st => st.saveRegion marshal kv now region
  | .deleteRegion region, st =>
    match PlacementDriver.deleteRegion kv.toKVBase st.db region with
    | .error e => (.error e, st)
    | .ok db => (.ok (), { st with db })
  | .flushRegion, st => st.flushRegion marshal kv
  | .tick now, st => st.backgroundFlushTick marshal kv now

/-- A run of calls; each goes on from the state the last one left. -/
def run (events : List Event) (st : RegionKV σ) : RegionKV σ :=
  events.foldl (fun st e => (step marshal kv e st).2) st

end RegionKV

end Write

namespace RegionKV

/-- What the region storage holds with its batch: the database overlaid with
the buffered regions, each marshalled by `encode`. -/
def view (get : σ → String → Option String) (encode : Region → String) (st : RegionKV σ) :
    String → Option String :=
  overlay encode st.batchRegions (get st.db)

/-- The store a call leaves when it goes straight to a store that takes every
call: `saveProto(kv, regionPath(region.GetId()), region)` puts the region,
`deleteRegion` removes it, and there is nothing to flush. -/
def Event.direct (encode : Region → String) : Event → (String → Option String) → String → Option String
  | .saveRegion _ region, m => Function.update m (regionPath region.id) (some (encode region))
  | .deleteRegion region, m => Function.update m (regionPath region.id) none
  | .flushRegion, m => m
  | .tick _, m => m

/-- The store a run of direct calls leaves. -/
def directRun (encode : Region → String) (events : List Event) (m : String → Option String) :
    String → Option String :=
  events.foldl (fun m e => e.direct encode m) m

/-! ## One call -/

section Steps

variable (marshal : Region → Except ε String) (kv : LeveldbKV σ ε) {st : RegionKV σ}

@[simp] theorem run_nil : run marshal kv [] st = st := rfl

@[simp] theorem run_cons (e : Event) (events : List Event) :
    run marshal kv (e :: events) st = run marshal kv events (step marshal kv e st).2 := rfl

/-- What a flush can do: fail and change nothing, or write the batch and empty
it. -/
theorem flush_eq_error_or_ok (st : RegionKV σ) :
    (∃ e, saveRegions marshal kv st.db st.batchRegions = .error e ∧ st.flush marshal kv = (.error e, st)) ∨
      ∃ db, saveRegions marshal kv st.db st.batchRegions = .ok db ∧
        st.flush marshal kv = (.ok (), { st with db := db, cacheSize := 0, batchRegions := ∅ }) := by
  unfold flush
  cases saveRegions marshal kv st.db st.batchRegions with
  | error e => exact .inl ⟨e, rfl, rfl⟩
  | ok db => exact .inr ⟨db, rfl, rfl⟩

/-- What a delete can do: fail and change nothing, or delete the region's path
from the database. -/
theorem step_deleteRegion_eq_error_or_ok (st : RegionKV σ) (region : Region) :
    (∃ e, kv.delete st.db (regionPath region.id) = .error e ∧
        step marshal kv (.deleteRegion region) st = (.error e, st)) ∨
      ∃ db, kv.delete st.db (regionPath region.id) = .ok db ∧
        step marshal kv (.deleteRegion region) st = (.ok (), { st with db := db }) := by
  simp only [step, PlacementDriver.deleteRegion]
  cases kv.delete st.db (regionPath region.id) with
  | error e => exact .inl ⟨e, rfl, rfl⟩
  | ok db => exact .inr ⟨db, rfl, rfl⟩

/-- A save puts the region into the batch, then flushes it if the call is the
`batchSize`-th. -/
theorem saveRegion_eq (now : Int) (region : Region) :
    st.saveRegion marshal kv now region =
      if st.cacheSize < st.batchSize - 1 then
        (.ok (), { st with
          batchRegions := st.batchRegions.insert (regionPath region.id) region
          cacheSize := st.cacheSize + 1
          flushTime := now + st.flushRate })
      else flush marshal kv { st with batchRegions := st.batchRegions.insert (regionPath region.id) region } :=
  rfl

/-- A flush changes only the database, the batch and `cacheSize`. -/
theorem flush_fields (st : RegionKV σ) :
    (st.flush marshal kv).2.flushRate = st.flushRate ∧ (st.flush marshal kv).2.batchSize = st.batchSize ∧
      (st.flush marshal kv).2.flushTime = st.flushTime := by
  rcases flush_eq_error_or_ok marshal kv st with ⟨_, _, h⟩ | ⟨_, _, h⟩ <;> simp [h]

/-- No call changes `flushRate` or `batchSize`, and only a save that buffers
moves `flushTime`, to `flushRate` after its time. -/
theorem step_fields (st : RegionKV σ) (e : Event) :
    (step marshal kv e st).2.flushRate = st.flushRate ∧ (step marshal kv e st).2.batchSize = st.batchSize ∧
      ((step marshal kv e st).2.flushTime = st.flushTime ∨
        ∃ now region, e = .saveRegion now region ∧ (step marshal kv e st).2.flushTime = now + st.flushRate) := by
  cases e with
  | saveRegion now region =>
    simp only [step, saveRegion_eq]
    split_ifs
    · exact ⟨rfl, rfl, .inr ⟨now, region, rfl, rfl⟩⟩
    · obtain ⟨h₁, h₂, h₃⟩ := flush_fields marshal kv
        { st with batchRegions := st.batchRegions.insert (regionPath region.id) region }
      exact ⟨h₁, h₂, .inl h₃⟩
  | deleteRegion region =>
    rcases step_deleteRegion_eq_error_or_ok marshal kv st region with
      ⟨_, _, h⟩ | ⟨_, _, h⟩ <;> simp [h]
  | flushRegion =>
    obtain ⟨h₁, h₂, h₃⟩ := flush_fields marshal kv st
    exact ⟨h₁, h₂, .inl h₃⟩
  | tick now =>
    simp only [step, backgroundFlushTick]
    split_ifs
    · obtain ⟨h₁, h₂, h₃⟩ := flush_fields marshal kv st
      exact ⟨h₁, h₂, .inl h₃⟩
    · exact ⟨rfl, rfl, .inl rfl⟩

/-- A run keeps `flushRate` and `batchSize`. -/
theorem flushRate_run : ∀ (events : List Event) (st : RegionKV σ),
    (run marshal kv events st).flushRate = st.flushRate ∧ (run marshal kv events st).batchSize = st.batchSize
  | [], _ => ⟨rfl, rfl⟩
  | e :: events, st => by
    obtain ⟨hr, hb⟩ := flushRate_run events (step marshal kv e st).2
    obtain ⟨hr', hb', -⟩ := step_fields marshal kv st e
    exact ⟨hr.trans hr', hb.trans hb'⟩

theorem batchSize_run (events : List Event) (st : RegionKV σ) :
    (run marshal kv events st).batchSize = st.batchSize :=
  (flushRate_run marshal kv events st).2

end Steps

/-! ## The view: saves through the batch are saves to the store -/

section View

variable {kv : LeveldbKV σ ε} {get : σ → String → Option String}

/-- `SaveRegions` with a `Marshal` that does not fail writes each region's
encoding under its key. -/
theorem saveRegions_encode (encode : Region → String) (s : σ) (regions : AList (fun _ : String => Region)) :
    saveRegions (fun r => .ok (encode r)) kv s regions =
      kv.write s (regions.entries.map fun e => (e.1, encode e.2)) := by
  have hmap : ∀ l : List (Σ _ : String, Region),
      (l.mapM fun r => do
          let value ← (Except.ok (encode r.2) : Except ε String)
          pure (r.1, value)) = .ok (l.map fun e => (e.1, encode e.2)) := by
    intro l
    induction l with
    | nil => rfl
    | cons e l ih =>
      rw [List.mapM_cons, ih]
      rfl
  simp only [saveRegions, hmap]
  rfl

/-- A batch written holds what the view showed. -/
theorem get_of_saveRegions_ok (hkv : kv.Lawful get) (encode : Region → String) {st : RegionKV σ} {db : σ}
    (h : saveRegions (fun r => .ok (encode r)) kv st.db st.batchRegions = .ok db) :
    get db = st.view get encode := by
  rw [saveRegions_encode] at h
  rw [hkv.write h, view, putAll_entries_overlay]

/-- A flush, written or failed, leaves the view as it was. -/
theorem view_flush (hkv : kv.Lawful get) (encode : Region → String) (st : RegionKV σ) :
    (st.flush (fun r => .ok (encode r)) kv).2.view get encode = st.view get encode := by
  rcases flush_eq_error_or_ok (fun r => .ok (encode r)) kv st with ⟨_, _, h⟩ | ⟨db, hs, h⟩
  · rw [h]
  · rw [h, ← get_of_saveRegions_ok hkv encode hs]
    exact overlay_empty

/-- A save, buffered or flushed and whether the flush fails or not, updates
the view as a direct save updates the store. -/
theorem view_saveRegion (hkv : kv.Lawful get) (encode : Region → String) (st : RegionKV σ) (now : Int)
    (region : Region) :
    (st.saveRegion (fun r => .ok (encode r)) kv now region).2.view get encode =
      Function.update (st.view get encode) (regionPath region.id) (some (encode region)) := by
  rw [saveRegion_eq]
  split_ifs
  · exact overlay_insert _ _
  · rw [view_flush hkv encode]
    exact overlay_insert _ _

/-- Every call but a delete moves the view as the direct call moves the
store. -/
theorem view_step (hkv : kv.Lawful get) (encode : Region → String) {e : Event}
    (he : ∀ region, e ≠ .deleteRegion region) (st : RegionKV σ) :
    (step (fun r => .ok (encode r)) kv e st).2.view get encode = e.direct encode (st.view get encode) := by
  cases e with
  | saveRegion now region => exact view_saveRegion hkv encode st now region
  | deleteRegion region => exact absurd rfl (he region)
  | flushRegion => exact view_flush hkv encode st
  | tick now =>
    simp only [step, backgroundFlushTick]
    split_ifs
    · exact view_flush hkv encode st
    · rfl

/-- Saving through the batch is saving to the store: over every run of saves,
flushes and ticks, in any order and whichever writes fail, the view moves as
the store of direct saves does. -/
theorem buffered_saves_agree_with_direct_saves (hkv : kv.Lawful get) (encode : Region → String) :
    ∀ (events : List Event) (st : RegionKV σ), (∀ region, Event.deleteRegion region ∉ events) →
      (run (fun r => .ok (encode r)) kv events st).view get encode =
        directRun encode events (st.view get encode) := by
  intro events
  -- induction on the run, from any state: the view is the invariant
  induction events with
  | nil => intro st _; rfl
  | cons e events ih =>
    intro st hno
    have he : ∀ region, e ≠ .deleteRegion region := by
      rintro region rfl
      exact hno region List.mem_cons_self
    rw [run_cons, ih _ fun region hr => hno region (List.mem_cons_of_mem e hr), view_step hkv encode he]
    rfl

/-- A store that is its own table and never fails; its range reads, which the
write path does not make, return nothing. -/
def tableKV : LeveldbKV (String → Option String) Unit where
  loadRange _ _ _ _ := .ok []
  delete s key := .ok (Function.update s key none)
  write s puts := .ok (putAll s puts)

/-- The table with no key. -/
def emptyTable : String → Option String := fun _ => none

theorem tableKV_lawful : tableKV.Lawful id where
  write h := by
    cases h
    rfl
  delete h := by
    cases h
    rfl

theorem buffered_saves_agree_with_direct_saves_wholeRegion :
    tableKV.Lawful id ∧ (∀ region, Event.deleteRegion region ∉ [.saveRegion 0 wholeRegion, .flushRegion]) ∧
      (run (fun r => .ok ((fun _ => "1") r)) tableKV [.saveRegion 0 wholeRegion, .flushRegion]
          (newRegionKV emptyTable 0)).view id (fun _ => "1") =
        directRun (fun _ => "1") [.saveRegion 0 wholeRegion, .flushRegion]
          ((newRegionKV emptyTable 0).view id (fun _ => "1")) :=
  ⟨tableKV_lawful, by simp,
    buffered_saves_agree_with_direct_saves tableKV_lawful (fun _ => "1") _ _ (by simp)⟩

/-- A delete of a region whose save is buffered removes its path from the
database only: the view keeps the buffered region, and a flush that succeeds
writes it back, where a direct delete would have removed it. -/
theorem delete_of_buffered_region_is_undone (hkv : kv.Lawful get) (encode : Region → String)
    {st : RegionKV σ} {region r : Region} (hbuf : st.batchRegions.lookup (regionPath region.id) = some r) :
    (step (fun r => .ok (encode r)) kv (.deleteRegion region) st).2.view get encode = st.view get encode ∧
      ((step (fun r => .ok (encode r)) kv .flushRegion
          (step (fun r => .ok (encode r)) kv (.deleteRegion region) st).2).1 = .ok () →
        get (step (fun r => .ok (encode r)) kv .flushRegion
          (step (fun r => .ok (encode r)) kv (.deleteRegion region) st).2).2.db (regionPath region.id) =
            some (encode r)) := by
  -- the delete keeps the batch; under the buffered key the database is hidden
  have hdel : (step (fun r => .ok (encode r)) kv (.deleteRegion region) st).2.view get encode =
      st.view get encode := by
    rcases step_deleteRegion_eq_error_or_ok (fun r => .ok (encode r)) kv st region with
      ⟨_, _, h⟩ | ⟨db, hd, h⟩
    · rw [h]
    · rw [h]
      show overlay encode st.batchRegions (get db) = overlay encode st.batchRegions (get st.db)
      rw [hkv.delete hd, overlay_update_of_lookup_eq_some hbuf]
  refine ⟨hdel, ?_⟩
  -- the flush writes the view, which still shows the buffered region
  generalize (step (fun r => .ok (encode r)) kv (.deleteRegion region) st).2 = st₁ at hdel ⊢
  show (st₁.flush _ kv).1 = .ok () → get (st₁.flush _ kv).2.db _ = _
  rcases flush_eq_error_or_ok (fun r => .ok (encode r)) kv st₁ with ⟨_, _, h⟩ | ⟨db, hs, h⟩
  · rw [h]
    intro hok
    cases hok
  · rw [h]
    intro _
    rw [get_of_saveRegions_ok hkv encode hs, hdel]
    exact overlay_of_lookup_eq_some hbuf

/-- `NewRegionKV` over the empty table with the save of `wholeRegion` still
in its batch. -/
def wholeRegionBuffered : RegionKV (String → Option String) :=
  { newRegionKV emptyTable 0 with
    batchRegions := (∅ : AList (fun _ : String => Region)).insert (regionPath wholeRegion.id) wholeRegion }

theorem delete_of_buffered_region_is_undone_wholeRegion :
    tableKV.Lawful id ∧
      wholeRegionBuffered.batchRegions.lookup (regionPath wholeRegion.id) = some wholeRegion ∧
      (step (fun r => .ok ((fun _ => "1") r)) tableKV (.deleteRegion wholeRegion) wholeRegionBuffered).2.view id
          (fun _ => "1") = wholeRegionBuffered.view id (fun _ => "1") ∧
      ((step (fun r => .ok ((fun _ => "1") r)) tableKV .flushRegion
          (step (fun r => .ok ((fun _ => "1") r)) tableKV (.deleteRegion wholeRegion) wholeRegionBuffered).2).1 =
            .ok () →
        id (step (fun r => .ok ((fun _ => "1") r)) tableKV .flushRegion
          (step (fun r => .ok ((fun _ => "1") r)) tableKV (.deleteRegion wholeRegion) wholeRegionBuffered).2).2.db
            (regionPath wholeRegion.id) = some ((fun _ => "1") wholeRegion)) :=
  ⟨tableKV_lawful, AList.lookup_insert _,
    delete_of_buffered_region_is_undone tableKV_lawful (fun _ => "1") (AList.lookup_insert _)⟩

end View

/-! ## The size of the batch and the time a region waits in it -/

section Bounds

variable {kv : LeveldbKV σ ε}

/-- The bound `SaveRegion` keeps on the batch while writes succeed: no more
regions than calls counted since the last flush, and fewer calls than
`batchSize`. -/
structure BatchBound (st : RegionKV σ) : Prop where
  length_le : (st.batchRegions.entries.length : Int) ≤ st.cacheSize
  cacheSize_lt : st.cacheSize < st.batchSize

/-- A flush whose write succeeds empties the batch. -/
theorem flush_of_write_ok (hw : ∀ s puts, ∃ s', kv.write s puts = .ok s') (encode : Region → String)
    (st : RegionKV σ) :
    ∃ db, st.flush (fun r => .ok (encode r)) kv = (.ok (), { st with db := db, cacheSize := 0, batchRegions := ∅ }) := by
  obtain ⟨db, hdb⟩ := hw st.db (st.batchRegions.entries.map fun e => (e.1, encode e.2))
  refine ⟨db, ?_⟩
  rw [flush, saveRegions_encode, hdb]

theorem BatchBound.flush (hw : ∀ s puts, ∃ s', kv.write s puts = .ok s') (encode : Region → String)
    {st : RegionKV σ} (hb : 0 < st.batchSize) : BatchBound (st.flush (fun r => .ok (encode r)) kv).2 := by
  obtain ⟨db, h⟩ := flush_of_write_ok hw encode st
  rw [h]
  exact ⟨by simp, hb⟩

theorem BatchBound.batchSize_pos {st : RegionKV σ} (h : BatchBound st) : 0 < st.batchSize := by
  have := h.length_le
  have := h.cacheSize_lt
  omega

/-- Every call keeps the bound while writes succeed. -/
theorem BatchBound.step (hw : ∀ s puts, ∃ s', kv.write s puts = .ok s') (encode : Region → String)
    {st : RegionKV σ} (h : BatchBound st) (e : Event) : BatchBound (step (fun r => .ok (encode r)) kv e st).2 := by
  cases e with
  | saveRegion now region =>
    simp only [RegionKV.step, saveRegion_eq]
    split_ifs with hc
    · -- buffered: one entry at most and one call more, below `batchSize - 1` before
      have hlen := Verified.Overlay.length_entries_insert_le st.batchRegions (regionPath region.id) region
      have := h.length_le
      exact ⟨by push_cast; omega, by simp only; omega⟩
    · exact BatchBound.flush hw encode h.batchSize_pos
  | deleteRegion region =>
    rcases step_deleteRegion_eq_error_or_ok (fun r => .ok (encode r)) kv st region with
      ⟨_, _, h'⟩ | ⟨_, _, h'⟩
    · rw [h']
      exact h
    · rw [h']
      exact ⟨h.length_le, h.cacheSize_lt⟩
  | flushRegion => exact BatchBound.flush hw encode h.batchSize_pos
  | tick now =>
    simp only [RegionKV.step, backgroundFlushTick]
    split_ifs
    · exact BatchBound.flush hw encode h.batchSize_pos
    · exact h

theorem BatchBound.run (hw : ∀ s puts, ∃ s', kv.write s puts = .ok s') (encode : Region → String) :
    ∀ (events : List Event) (st : RegionKV σ), BatchBound st →
      BatchBound (run (fun r => .ok (encode r)) kv events st)
  | [], _, h => h
  | e :: events, _, h => BatchBound.run hw encode events _ (h.step hw encode e)

/-- While writes succeed, fewer than `defaultBatchSize` regions wait in the
batch, over every run from `NewRegionKV`. -/
theorem batch_stays_below_batch_size (hw : ∀ s puts, ∃ s', kv.write s puts = .ok s') (encode : Region → String)
    (db : σ) (now : Int) (events : List Event) :
    ((run (fun r => .ok (encode r)) kv events (newRegionKV db now)).batchRegions.entries.length : Int) <
      defaultBatchSize := by
  have hrun := BatchBound.run hw encode events (newRegionKV db now) ⟨by simp [newRegionKV], by simp [newRegionKV, defaultBatchSize]⟩
  have hsize : (run (fun r => .ok (encode r)) kv events (newRegionKV db now)).batchSize = defaultBatchSize :=
    (batchSize_run _ kv events _).trans rfl
  have := hrun.length_le
  have := hrun.cacheSize_lt
  omega

theorem batch_stays_below_batch_size_tableKV :
    (∀ s puts, ∃ s', tableKV.write s puts = .ok s') ∧
      ((run (fun r => .ok ((fun _ => "1") r)) tableKV [.saveRegion 0 wholeRegion, .tick 5000000000]
          (newRegionKV emptyTable 0)).batchRegions.entries.length : Int) < defaultBatchSize :=
  ⟨fun _ _ => ⟨_, rfl⟩, batch_stays_below_batch_size (fun _ _ => ⟨_, rfl⟩) _ _ _ _⟩

/-- A run leaves `flushTime` before `now` when it was before and every save of
the run came more than `flushRate` before `now`. -/
theorem flushTime_run_lt (marshal : Region → Except ε String) {now : Int} :
    ∀ (events : List Event) {st : RegionKV σ}, st.flushTime < now →
      (∀ t region, Event.saveRegion t region ∈ events → t + st.flushRate < now) →
        (run marshal kv events st).flushTime < now
  | [], _, hst, _ => hst
  | e :: events, st, hst, hsaves => by
    obtain ⟨hrate, -, htime⟩ := step_fields marshal kv st e
    refine flushTime_run_lt marshal events ?_ fun t region hr => hrate ▸ hsaves t region (List.mem_cons_of_mem e hr)
    rcases htime with h | ⟨t, region, rfl, h⟩
    · rw [h]
      exact hst
    · rw [h]
      exact hsaves t region List.mem_cons_self

/-- A region waits in the batch at most until the first tick `flushRate` after
the last save: such a tick flushes, and if the write succeeds the database
holds the view. -/
theorem tick_after_flush_rate_writes_the_view {get : σ → String → Option String} (hkv : kv.Lawful get)
    (encode : Region → String) (events : List Event) (st : RegionKV σ) (now : Int) (hst : st.flushTime < now)
    (hsaves : ∀ t region, Event.saveRegion t region ∈ events → t + st.flushRate < now) :
    step (fun r => .ok (encode r)) kv (.tick now) (run (fun r => .ok (encode r)) kv events st) =
        (run (fun r => .ok (encode r)) kv events st).flushRegion (fun r => .ok (encode r)) kv ∧
      ((step (fun r => .ok (encode r)) kv (.tick now) (run (fun r => .ok (encode r)) kv events st)).1 = .ok () →
        get (step (fun r => .ok (encode r)) kv (.tick now) (run (fun r => .ok (encode r)) kv events st)).2.db =
          (run (fun r => .ok (encode r)) kv events st).view get encode) := by
  have hlt : (run (fun r => .ok (encode r)) kv events st).flushTime < now :=
    flushTime_run_lt _ events hst hsaves
  have htick : step (fun r => .ok (encode r)) kv (.tick now) (run (fun r => .ok (encode r)) kv events st) =
      (run (fun r => .ok (encode r)) kv events st).flushRegion (fun r => .ok (encode r)) kv := by
    simp only [RegionKV.step, backgroundFlushTick, if_pos hlt]
  refine ⟨htick, ?_⟩
  rw [htick]
  generalize run (fun r => .ok (encode r)) kv events st = st'
  rcases flush_eq_error_or_ok (fun r => .ok (encode r)) kv st' with ⟨_, _, h⟩ | ⟨db, hs, h⟩
  · simp [flushRegion, h]
  · simp only [flushRegion, h]
    intro _
    exact get_of_saveRegions_ok hkv encode hs

theorem tick_after_flush_rate_writes_the_view_wholeRegion :
    tableKV.Lawful id ∧ (newRegionKV emptyTable 0).flushTime < 7000000000 ∧
      (∀ t region, Event.saveRegion t region ∈ [Event.saveRegion 1000000000 wholeRegion] →
        t + (newRegionKV emptyTable 0).flushRate < 7000000000) ∧
      (step (fun r => .ok ((fun _ => "1") r)) tableKV (.tick 7000000000)
          (run (fun r => .ok ((fun _ => "1") r)) tableKV [.saveRegion 1000000000 wholeRegion]
            (newRegionKV emptyTable 0)) =
        (run (fun r => .ok ((fun _ => "1") r)) tableKV [.saveRegion 1000000000 wholeRegion]
            (newRegionKV emptyTable 0)).flushRegion (fun r => .ok ((fun _ => "1") r)) tableKV ∧
      ((step (fun r => .ok ((fun _ => "1") r)) tableKV (.tick 7000000000)
          (run (fun r => .ok ((fun _ => "1") r)) tableKV [.saveRegion 1000000000 wholeRegion]
            (newRegionKV emptyTable 0))).1 = .ok () →
        id (step (fun r => .ok ((fun _ => "1") r)) tableKV (.tick 7000000000)
          (run (fun r => .ok ((fun _ => "1") r)) tableKV [.saveRegion 1000000000 wholeRegion]
            (newRegionKV emptyTable 0))).2.db =
          (run (fun r => .ok ((fun _ => "1") r)) tableKV [.saveRegion 1000000000 wholeRegion]
            (newRegionKV emptyTable 0)).view id (fun _ => "1"))) := by
  have hst : (newRegionKV emptyTable 0).flushTime < 7000000000 := by
    simp [newRegionKV, defaultFlushRegionRate]
  have hsaves : ∀ t region, Event.saveRegion t region ∈ [Event.saveRegion 1000000000 wholeRegion] →
      t + (newRegionKV emptyTable 0).flushRate < 7000000000 := by
    intro t region h
    simp only [List.mem_singleton, Event.saveRegion.injEq] at h
    rw [h.1]
    simp [newRegionKV, defaultFlushRegionRate]
  exact ⟨tableKV_lawful, hst, hsaves,
    tick_after_flush_rate_writes_the_view tableKV_lawful (fun _ => "1") _ _ _ hst hsaves⟩

/-- With writes that fail, no flush empties the batch: a call leaves the
batch as it was, with the region of a save put in. -/
theorem batchRegions_step_of_write_error (hw : ∀ s puts, ∃ e, kv.write s puts = .error e)
    (marshal : Region → Except ε String) (st : RegionKV σ) (e : Event) :
    (step marshal kv e st).2.batchRegions =
      match e with
      | .saveRegion _ region => st.batchRegions.insert (regionPath region.id) region
      | _ => st.batchRegions := by
  -- every flush fails: the marshalling or else the write
  have hflush : ∀ st : RegionKV σ, st.flush marshal kv = ((st.flush marshal kv).1, st) := by
    intro st
    rcases flush_eq_error_or_ok marshal kv st with ⟨_, _, h⟩ | ⟨db, hs, _⟩
    · rw [h]
    · exfalso
      revert hs
      unfold saveRegions
      cases (st.batchRegions.entries.mapM fun r => do
          let value ← marshal r.2
          pure (r.1, value)) with
      | error e => exact fun h => nomatch h
      | ok batch =>
        obtain ⟨e, he⟩ := hw st.db batch
        intro h
        simp only [bind, Except.bind, he] at h
        cases h
  cases e with
  | saveRegion now region =>
    simp only [RegionKV.step, saveRegion_eq]
    split_ifs
    · rfl
    · rw [hflush]
  | deleteRegion region =>
    rcases step_deleteRegion_eq_error_or_ok marshal kv st region with
      ⟨_, _, h⟩ | ⟨_, _, h⟩ <;> rw [h]
  | flushRegion =>
    simp only [RegionKV.step, flushRegion]
    rw [hflush]
  | tick now =>
    simp only [RegionKV.step, backgroundFlushTick]
    split_ifs
    · simp only [flushRegion]
      rw [hflush]
    · rfl

/-- While writes fail, the batch drops nothing: after any run it holds the
paths it held and that of every region saved, and only those, so it grows
with every new region saved. -/
theorem failed_writes_keep_every_saved_region (hw : ∀ s puts, ∃ e, kv.write s puts = .error e)
    (marshal : Region → Except ε String) (k : String) :
    ∀ (events : List Event) (st : RegionKV σ), k ∈ (run marshal kv events st).batchRegions ↔
      k ∈ st.batchRegions ∨ ∃ t region, Event.saveRegion t region ∈ events ∧ regionPath region.id = k := by
  intro events
  induction events with
  | nil => simp
  | cons e events ih =>
    intro st
    rw [run_cons, ih, batchRegions_step_of_write_error hw]
    cases e with
    | saveRegion now region =>
      simp only [AList.mem_insert, List.mem_cons, Event.saveRegion.injEq]
      constructor
      · rintro ((rfl | hk) | ⟨t, r, hr, rfl⟩)
        · exact .inr ⟨now, region, .inl ⟨rfl, rfl⟩, rfl⟩
        · exact .inl hk
        · exact .inr ⟨t, r, .inr hr, rfl⟩
      · rintro (hk | ⟨t, r, (⟨rfl, rfl⟩ | hr), rfl⟩)
        · exact .inl (.inr hk)
        · exact .inl (.inl rfl)
        · exact .inr ⟨t, r, hr, rfl⟩
    | deleteRegion region => simp
    | flushRegion => simp
    | tick now => simp

/-- A store all of whose calls fail. -/
def failingKV : LeveldbKV Unit Unit where
  loadRange _ _ _ _ := .error ()
  delete _ _ := .error ()
  write _ _ := .error ()

theorem failed_writes_keep_every_saved_region_failingKV :
    (∀ s puts, ∃ e, failingKV.write s puts = .error e) ∧
      (regionPath wholeRegion.id ∈
          (run (fun _ => .ok "1") failingKV [.saveRegion 0 wholeRegion, .flushRegion, .tick 5000000000]
            (newRegionKV () 0)).batchRegions ↔
        regionPath wholeRegion.id ∈ (newRegionKV () 0).batchRegions ∨
          ∃ t region, Event.saveRegion t region ∈ [Event.saveRegion 0 wholeRegion, .flushRegion, .tick 5000000000] ∧
            regionPath region.id = regionPath wholeRegion.id) :=
  ⟨fun _ _ => ⟨(), rfl⟩, failed_writes_keep_every_saved_region (fun _ _ => ⟨(), rfl⟩) _ _ _ _⟩

end Bounds

end RegionKV

end PlacementDriver
