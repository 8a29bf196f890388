import Mathlib
import PlacementDriver.Go.Int

/-!
# The timestamp oracle

`server/tso.go` hands out timestamps `(physical, logical)`: `physical` is a
wall-clock time in milliseconds, `logical` a counter below `maxLogical`. The
leader keeps the current pair in `s.ts` and persists in etcd a time
`TsoSaveInterval` ahead of it; no physical time it hands out reaches the
persisted one, and the next leader starts past it (`syncTimestamp`).
`updateTimestamp` moves the physical time forward, and `getRespTS` takes
`count` logical values at once. The client (`client.processTSORequests`)
spreads the `count` values of a response over its batch of requests.

A time is a `time.Time` read as its exact count of nanoseconds from the
epoch. `UnixNano` reads it as an `int64`, which wraps for dates outside the
years 1678–2262 (`unixNano`), and `subTimeByWallClock` subtracts two of
those in `int64`. The zero time, January 1 of year 1, is such a date: its
`UnixNano` is about year 1754, and against it `subTimeByWallClock` wraps for
every reading from `syncHorizon`, in December 2046, on. A first
`syncTimestamp` from then on takes the branch of a slow clock and starts the
oracle a millisecond into year 1 (`syncNext_zeroTime_of_horizon_le`). The
etcd key holds `uint64(ts.UnixNano())`, which `parseTimestamp` reads back as
the time `unixNano ts`. The etcd transaction of `saveTimestamp` is a
`SaveOutcome`: committed, refused by the leader compare, or committed with an
error returned. A term of another server starts the same way: `syncTimestamp`
overwrites `ts` and `lastSavedTime` before the first grant of the term, so the
fields of one server stand for the leader's.

## Main results

* `unixNano_of_inRange`, `subTimeByWallClock_of_inRange`: from the epoch to
  `2 ^ 63` ns nothing wraps.
* `Inv.step`: one event keeps the invariant `Inv` and the bound `Bounded` on
  the times, raised by the event's `Event.drift`, and a grant lies past every
  earlier one; `Inv.run` extends this to a run.
* `tso_strictly_increasing`: from a fresh cluster, with clock readings from the
  Unix epoch up to `syncHorizon` and a run whose drift keeps the times below
  `2 ^ 63` ns, the logical range of every grant lies in `[1, maxLogical)`,
  grants strictly increase over the whole run, across terms, `ts` stays below
  `lastSavedTime` and that below the time in etcd, and the timestamps the
  client hands to its requests strictly increase.
* `tso_repeats_out_of_range`: with readings half a millisecond on either side
  of the epoch two grants coincide, since Go's `/` truncates toward zero; with
  a save interval of `2 ^ 62` ns a saved time wraps in etcd and a later term
  grants again what the first one did.
-/

namespace PlacementDriver

namespace Server

/-! ## The oracle -/

/-- `updateTimestampGuard`: one millisecond, in nanoseconds. -/
def updateTimestampGuard : Int := 1000000

/-- `time.Millisecond`, in nanoseconds. -/
def millisecond : Int := 1000000

/-- `maxLogical`. -/
def maxLogical : Int := 2 ^ 18

/-- `zeroTime = time.Time{}`, January 1 of year 1, in nanoseconds from the epoch. -/
def zeroTime : Int := -62135596800 * 1000000000

/-- `t.UnixNano()`: the nanoseconds from the epoch as an `int64`, which wraps
for times outside the years 1678–2262. -/
def unixNano (t : Int) : Int := Go.Int.wrap64 t

/-- `subTimeByWallClock(after, before)`: the `int64` difference of the two
`UnixNano`s. -/
def subTimeByWallClock (after before : Int) : Int := Go.Int.wrap64 (unixNano after - unixNano before)

/-- The first reading from which `subTimeByWallClock` against `zeroTime`
wraps, in December 2046. -/
def syncHorizon : Int := 2 ^ 63 + unixNano zeroTime

/-- `maxRetryCount` of `getRespTS`. -/
def maxRetryCount : Nat := 100

/-- `atomicObject`. -/
structure AtomicObject where
  physical : Int
  logical : Int
deriving DecidableEq, Repr

/-- `pdpb.Timestamp`; `physical` is in milliseconds. -/
structure Timestamp where
  physical : Int
  logical : Int
deriving DecidableEq, Repr

/-- What the etcd transaction of `saveTimestamp` did. -/
inductive SaveOutcome
  /-- `resp.Succeeded` -/
  | committed
  /-- the leader compare failed -/
  | rejected
  /-- the put was applied, but `Commit` returned an error -/
  | lost
deriving DecidableEq, Repr

/-- The errors of the oracle. -/
inductive TsoError
  /-- `tso count should be positive` -/
  | countNotPositive
  /-- `can not get timestamp` -/
  | cannotGetTimestamp
  /-- `save timestamp failed, maybe we lost leader` -/
  | saveTimestampFailed
  /-- an error of the etcd client -/
  | etcd
deriving DecidableEq, Repr

/-- The oracle of a server, with the etcd key `timestamp`. -/
structure TsoState where
  /-- `s.ts`; `none` before the first `Store` -/
  ts : Option AtomicObject
  lastSavedTime : Int
  /-- the key `rootPath/timestamp`; `none` while absent -/
  timestampKey : Option Int
  /-- whether a term of `campaignLeader` runs past `syncTimestamp` -/
  leading : Bool
deriving DecidableEq, Repr

/-- The time `syncTimestamp` starts from: `time.Now()`, unless that is less than
a guard past the saved time `last`. -/
def syncNext (last now : Int) : Int :=
  if subTimeByWallClock now last < updateTimestampGuard then last + updateTimestampGuard else now

/-- The physical time `updateTimestamp` moves to, if any: `time.Now()` when the
clock is more than a guard ahead, one millisecond more when the logical part
is half used. -/
def updateNext (prev : AtomicObject) (now : Int) : Option Int :=
  if subTimeByWallClock now prev.physical > updateTimestampGuard then some now
  else if prev.logical > maxLogical / 2 then some (prev.physical + millisecond)
  else none

namespace TsoState

/-- A cluster before its first leader: `lastSavedTime` is the zero time. -/
def initial : TsoState := ⟨none, zeroTime, none, false⟩

/-- `loadTimestamp`: an absent key reads as `zeroTime`. -/
def loadTimestamp (st : TsoState) : Int := st.timestampKey.getD zeroTime

/-- `saveTimestamp(ts)`: the leader transaction, then `s.lastSavedTime = ts`. -/
def saveTimestamp (st : TsoState) (ts : Int) : SaveOutcome → TsoState × Except TsoError Unit
  | .committed => ({ st with timestampKey := some (unixNano ts), lastSavedTime := ts }, .ok ())
  | .rejected => (st, .error .saveTimestampFailed)
  | .lost => ({ st with timestampKey := some (unixNano ts) }, .error .etcd)

/-- `syncTimestamp`, with `time.Now()` read as `now`. -/
def syncTimestamp (st : TsoState) (tsoSaveInterval now : Int) (o : SaveOutcome) :
    TsoState × Except TsoError Unit :=
  let next := syncNext st.loadTimestamp now
  match st.saveTimestamp (next + tsoSaveInterval) o with
  | (st, .error e) => (st, .error e)
  | (st, .ok ()) => ({ st with ts := some ⟨next, 0⟩ }, .ok ())

/-- `updateTimestamp`, with `time.Now()` read as `now`. -/
def updateTimestamp (st : TsoState) (tsoSaveInterval now : Int) (o : SaveOutcome) :
    Option (TsoState × Except TsoError Unit) :=
  match st.ts with
  -- `s.ts.Load().(*atomicObject)` panics on a never stored `s.ts`
  | none => none
  | some prev =>
    match updateNext prev now with
    -- `skip_save`: allocation goes on at the previous physical time
    | none => some (st, .ok ())
    | some next =>
      -- the time window is not enough: save `next` plus the interval first
      if subTimeByWallClock st.lastSavedTime next ≤ updateTimestampGuard then
        match st.saveTimestamp (next + tsoSaveInterval) o with
        | (st, .error e) => some (st, .error e)
        | (st, .ok ()) => some ({ st with ts := some ⟨next, 0⟩ }, .ok ())
      else some ({ st with ts := some ⟨next, 0⟩ }, .ok ())

/-- The loop of `getRespTS`, with `fuel` attempts left. -/
def getRespTSLoop (count : Int) : Nat → TsoState → TsoState × Except TsoError Timestamp
  | 0, st => (st, .error .cannotGetTimestamp)
  | fuel + 1, st =>
    match st.ts with
    | some current =>
      -- not synced yet: sleep and retry
      if current.physical = zeroTime then getRespTSLoop count fuel st
      else
        -- `atomic.AddInt64(&current.logical, int64(count))`
        let logical := current.logical + count
        let st := { st with ts := some { current with logical := logical } }
        if logical ≥ maxLogical then getRespTSLoop count fuel st
        else (st, .ok ⟨(unixNano current.physical).tdiv millisecond, logical⟩)
    | none => getRespTSLoop count fuel st

/-- `getRespTS(count)`. -/
def getRespTS (st : TsoState) (count : UInt32) : TsoState × Except TsoError Timestamp :=
  if count = 0 then (st, .error .countNotPositive)
  else getRespTSLoop count.toNat maxRetryCount st

/-- The end of a term: the deferred `s.ts.Store(&atomicObject{physical: zeroTime})`
of `campaignLeader`. -/
def endTerm (st : TsoState) : TsoState :=
  if st.leading then { st with ts := some ⟨zeroTime, 0⟩, leading := false } else st

end TsoState

/-- What happens to the oracle. -/
inductive Event
  /-- a term starts: `campaignLeader` calls `syncTimestamp`, reading `now` -/
  | campaign (now : Int) (o : SaveOutcome)
  /-- the ticker of `campaignLeader` calls `updateTimestamp`, reading `now` -/
  | update (now : Int) (o : SaveOutcome)
  /-- a `Tso` request for `count` timestamps -/
  | tso (count : UInt32)
  /-- the term ends: the lease expired, or the server stopped -/
  | resign
deriving DecidableEq, Repr

/-- The clock reading of an event. -/
def Event.reading : Event → Int
  | .campaign now _ | .update now _ => now
  | .tso _ | .resign => 0

/-- How far past the clock an event can move the times of the oracle: a term
may start a guard past the time in etcd, which is up to `tsoSaveInterval`
past `ts`, and an update may move `ts` a millisecond on. -/
def Event.drift (tsoSaveInterval : Int) : Event → Int
  | .campaign _ _ => tsoSaveInterval + updateTimestampGuard
  | .update _ _ => millisecond
  | .tso _ | .resign => 0

namespace TsoState

/-- One event; the answer to a `Tso` request is the timestamp with the request's
count. -/
def step (tsoSaveInterval : Int) (st : TsoState) : Event → Option (TsoState × Option (Timestamp × UInt32))
  | .campaign now o =>
    -- a new term: the previous one, if any, has ended
    match st.endTerm.syncTimestamp tsoSaveInterval now o with
    | (st, .ok ()) => some ({ st with leading := true }, none)
    -- `campaignLeader` returns before it defers the reset
    | (st, .error _) => some (st, none)
  | .update now o =>
    if st.leading then
      match st.updateTimestamp tsoSaveInterval now o with
      | some (st, .ok ()) => some (st, none)
      -- `campaignLeader` returns: the term ends
      | some (st, .error _) => some (st.endTerm, none)
      | none => none
    else some (st, none)
  | .tso count =>
    -- a server out of a term answers `not leader`
    if st.leading then
      match st.getRespTS count with
      | (st, .ok ts) => some (st, some (ts, count))
      | (st, .error _) => some (st, none)
    else some (st, none)
  | .resign => some (st.endTerm, none)

/-- A run of events; the `Tso` answers, in order. -/
def run (tsoSaveInterval : Int) : TsoState → List Event → Option (TsoState × List (Timestamp × UInt32))
  | st, [] => some (st, [])
  | st, ev :: evs =>
    match st.step tsoSaveInterval ev with
    | none => none
    | some (st', g) => (st'.run tsoSaveInterval evs).map fun r => (r.1, g.toList ++ r.2)

end TsoState

/-! ## The client -/

/-- The errors of `processTSORequests` once a response arrived. -/
inductive ClientError
  /-- `errTSOLength`: `[pd] tso length in rpc response is incorrect` -/
  | tsoLength
deriving DecidableEq, Repr

/-- `finishTSORequest(requests, physical, firstLogical, nil)`: the timestamps of
the requests, in order. -/
def finishTSORequest (requests : Nat) (physical firstLogical : Int) : List (Int ×ₗ Int) :=
  (List.range requests).map fun i : Nat => toLex (physical, firstLogical + i)

/-- `processTSORequests` for a batch of `requests` requests, once the response
`(ts, count)` arrived. -/
def processTSORequests (requests : Nat) (count : UInt32) (ts : Timestamp) :
    Except ClientError (List (Int ×ₗ Int)) :=
  if count ≠ requests.toUInt32 then .error .tsoLength
  else
    -- the server returns the highest timestamp
    .ok (finishTSORequest requests ts.physical (ts.logical - (count - 1).toNat))

/-- The first of the `count` timestamps a response `ts` stands for. -/
def Timestamp.first (ts : Timestamp) (count : UInt32) : Int ×ₗ Int :=
  toLex (ts.physical, ts.logical - count.toNat + 1)

/-- The last of the timestamps a response `ts` stands for: its own. -/
def Timestamp.last (ts : Timestamp) : Int ×ₗ Int := toLex (ts.physical, ts.logical)

/-! ## Times in `int64`

From the epoch to `2 ^ 63` ns, in year 2262, `UnixNano` is the time itself
and `subTimeByWallClock` the exact difference. `Bounded` keeps the times of
the oracle below a bound `c`, and each event raises the bound by its drift. -/

/-- A time from the epoch to year 2262 is its own `UnixNano`. -/
theorem unixNano_of_inRange {t : Int} (h₀ : 0 ≤ t) (h₁ : t < 2 ^ 63) : unixNano t = t :=
  Go.Int.wrap64_of_inInt64 ⟨by omega, h₁⟩

theorem subTimeByWallClock_of_inRange {a b : Int} (ha₀ : 0 ≤ a) (ha₁ : a < 2 ^ 63) (hb₀ : 0 ≤ b)
    (hb₁ : b < 2 ^ 63) : subTimeByWallClock a b = a - b := by
  unfold subTimeByWallClock
  rw [unixNano_of_inRange ha₀ ha₁, unixNano_of_inRange hb₀ hb₁]
  exact Go.Int.wrap64_of_inInt64 ⟨by omega, by omega⟩

/-- The zero time wraps to a date in 1754. -/
theorem unixNano_zeroTime : unixNano zeroTime = -6795364578871345152 := by decide

theorem syncHorizon_eq : syncHorizon = 2428007457983430656 := by
  rw [syncHorizon, unixNano_zeroTime]
  norm_num

/-- Before `syncHorizon`, a reading is far past the zero time. -/
theorem guard_le_subTimeByWallClock_zeroTime {now : Int} (h₀ : 0 ≤ now) (h₁ : now < syncHorizon) :
    updateTimestampGuard ≤ subTimeByWallClock now zeroTime := by
  rw [syncHorizon_eq] at h₁
  unfold subTimeByWallClock
  rw [unixNano_of_inRange h₀ (by omega), unixNano_zeroTime, Go.Int.wrap64_of_inInt64 ⟨by omega, by omega⟩]
  unfold updateTimestampGuard
  omega

/-- From `syncHorizon` on, the difference to the zero time wraps below zero:
a first `syncTimestamp` takes the branch of a slow clock and starts a guard
past the zero time, in year 1. -/
theorem syncNext_zeroTime_of_horizon_le {now : Int} (h₀ : syncHorizon ≤ now) (h₁ : now < 2 ^ 63) :
    syncNext zeroTime now = zeroTime + updateTimestampGuard := by
  rw [syncHorizon_eq] at h₀
  have hwrap : subTimeByWallClock now zeroTime = now + 6795364578871345152 - 2 ^ 64 := by
    unfold subTimeByWallClock
    rw [unixNano_of_inRange (by omega) h₁, unixNano_zeroTime, Go.Int.wrap64_of_high (by omega) (by omega)]
    ring
  rw [syncNext, if_pos (by rw [hwrap]; unfold updateTimestampGuard; omega)]

theorem syncNext_of_inRange {last now : Int} (hl₀ : 0 ≤ last) (hl₁ : last < 2 ^ 63) (hn₀ : 0 ≤ now)
    (hn₁ : now < 2 ^ 63) :
    syncNext last now = if now - last < updateTimestampGuard then last + updateTimestampGuard else now := by
  rw [syncNext, subTimeByWallClock_of_inRange hn₀ hn₁ hl₀ hl₁]

theorem Event.drift_nonneg {I : Int} (hI : 0 ≤ I) (ev : Event) : 0 ≤ ev.drift I := by
  cases ev <;> simp only [Event.drift, updateTimestampGuard, millisecond] <;> omega

namespace TsoState

/-- The times of the oracle are at most `c`, and the times saved at most
`tsoSaveInterval` past it. -/
structure Bounded (I c : Int) (st : TsoState) : Prop where
  ts_le : ∀ a, st.ts = some a → a.physical ≤ c
  lastSavedTime_le : st.lastSavedTime ≤ c + I
  key_le : ∀ e, st.timestampKey = some e → e ≤ c + I

section Bounded

variable {st : TsoState} {I c : Int}

theorem bounded_initial (hI : 0 ≤ I) (hc : 0 ≤ c) : Bounded I c initial where
  ts_le _ h := by cases h
  lastSavedTime_le := by
    show zeroTime ≤ c + I
    unfold zeroTime
    omega
  key_le _ h := by cases h

theorem Bounded.mono (h : Bounded I c st) {d : Int} (hle : c ≤ d) : Bounded I d st where
  ts_le a ha := (h.ts_le a ha).trans hle
  lastSavedTime_le := by have := h.lastSavedTime_le; omega
  key_le e he := by have := h.key_le e he; omega

theorem Bounded.endTerm (h : Bounded I c st) (hc : 0 ≤ c) : Bounded I c st.endTerm := by
  unfold TsoState.endTerm
  split
  · exact {
      ts_le := fun a ha => by
        cases ha
        show zeroTime ≤ c
        unfold zeroTime
        omega
      lastSavedTime_le := h.lastSavedTime_le
      key_le := h.key_le }
  · exact h

theorem Bounded.raiseKey (h : Bounded I c st) {s : Int} (hs : s ≤ c + I) :
    Bounded I c { st with timestampKey := some s } where
  ts_le := h.ts_le
  lastSavedTime_le := h.lastSavedTime_le
  key_le _ he := by cases he; exact hs

/-- A term that starts: every time of the state is new. -/
theorem bounded_begin {next save : Int} (hnext : next ≤ c) (hsave : save ≤ c + I) :
    Bounded I c { st with timestampKey := some save, lastSavedTime := save, ts := some ⟨next, 0⟩, leading := true } where
  ts_le _ ha := by cases ha; exact hnext
  lastSavedTime_le := hsave
  key_le _ he := by cases he; exact hsave

theorem Bounded.save (h : Bounded I c st) {s : Int} (hs : s ≤ c + I) :
    Bounded I c { st with timestampKey := some s, lastSavedTime := s } where
  ts_le := h.ts_le
  lastSavedTime_le := hs
  key_le _ he := by cases he; exact hs

theorem Bounded.advance (h : Bounded I c st) {next : Int} (hnext : next ≤ c) :
    Bounded I c { st with ts := some ⟨next, 0⟩ } where
  ts_le _ ha := by cases ha; exact hnext
  lastSavedTime_le := h.lastSavedTime_le
  key_le := h.key_le

theorem Bounded.setLogical (h : Bounded I c st) {a : AtomicObject} (ha : st.ts = some a) (l : Int) :
    Bounded I c { st with ts := some { a with logical := l } } where
  ts_le _ hb := by cases hb; exact h.ts_le a ha
  lastSavedTime_le := h.lastSavedTime_le
  key_le := h.key_le

end Bounded

end TsoState

/-! ## The invariant

`hw` is the last timestamp granted so far, `⊥` before the first grant. Within
a term, `ts` is at or past it; across terms, it lies in a millisecond no later
than the one of the time in etcd, and the next term starts a millisecond past
that time. -/

namespace TsoState

/-- The invariant of the oracle, with `hw` the last timestamp granted. -/
structure Inv (st : TsoState) (hw : WithBot (Int ×ₗ Int)) : Prop where
  /-- the times saved in etcd are after the epoch -/
  key_nonneg : ∀ e, st.timestampKey = some e → 0 ≤ e
  /-- the last grant is in a millisecond no later than the time in etcd -/
  granted : ∀ m l : Int, hw = ↑(toLex (m, l)) → ∃ e, st.timestampKey = some e ∧ m ≤ e / millisecond
  /-- a stored `ts` is below `lastSavedTime`, and that at most the time in etcd -/
  saved : ∀ a, st.ts = some a →
    a.physical < st.lastSavedTime ∧ ∃ e, st.timestampKey = some e ∧ st.lastSavedTime ≤ e
  /-- in a term, etcd holds `lastSavedTime`, and `ts` is after the epoch and
  at or past the last grant -/
  leading : st.leading = true → st.timestampKey = some st.lastSavedTime ∧
    ∃ a, st.ts = some a ∧ 0 ≤ a.physical ∧ 0 ≤ a.logical ∧
      hw ≤ ↑(toLex (a.physical / millisecond, a.logical))
  /-- out of a term, `ts` is unset or zero -/
  idle : st.leading = false → ∀ a, st.ts = some a → a.physical = zeroTime

variable {st : TsoState} {hw : WithBot (Int ×ₗ Int)}

theorem inv_initial : Inv initial ⊥ where
  key_nonneg _ h := by cases h
  granted _ _ h := absurd h WithBot.bot_ne_coe
  saved _ h := by cases h
  leading h := by cases h
  idle _ _ h := by cases h

/-- A time a millisecond or more later is in a later millisecond. -/
theorem millisecond_lt {p q : Int} (hq : p + millisecond ≤ q) :
    p / millisecond < q / millisecond := by
  unfold millisecond at *
  omega

theorem endTerm_leading (st : TsoState) : st.endTerm.leading = false := by
  unfold endTerm
  split
  · rfl
  · simp_all

theorem Inv.endTerm (h : Inv st hw) : Inv st.endTerm hw := by
  unfold TsoState.endTerm
  split
  · rename_i hl
    obtain ⟨hkey, a, ha, hp, -, -⟩ := h.leading hl
    have hbelow := (h.saved a ha).1
    exact {
      key_nonneg := h.key_nonneg
      granted := h.granted
      saved := fun b hb => by
        cases hb
        -- the zero time is before the epoch, so before `lastSavedTime`
        exact ⟨show zeroTime < st.lastSavedTime by unfold zeroTime; omega, _, hkey, le_rfl⟩
      leading := fun hl' => Bool.noConfusion hl'
      idle := fun _ b hb => by cases hb; rfl }
  · exact h

theorem timestampKey_endTerm (st : TsoState) : st.endTerm.timestampKey = st.timestampKey := by
  unfold endTerm
  split <;> rfl

theorem endTerm_timestampKey (st : TsoState) (k : Option Int) :
    endTerm { st with timestampKey := k } = { st.endTerm with timestampKey := k } := by
  unfold endTerm
  split <;> rfl

/-- A put to etcd out of a term, of a time past the one there. -/
theorem Inv.raiseKey (h : Inv st hw) (hl : st.leading = false) {s : Int} (hs : 0 ≤ s)
    (hkey : ∀ e, st.timestampKey = some e → e ≤ s) : Inv { st with timestampKey := some s } hw where
  key_nonneg _ he := by cases he; exact hs
  granted m l hg := by
    obtain ⟨e, he, hm⟩ := h.granted m l hg
    exact ⟨s, rfl, le_trans hm (Int.ediv_le_ediv (by decide) (hkey e he))⟩
  saved a ha := by
    obtain ⟨hbelow, e, he, hle⟩ := h.saved a ha
    exact ⟨hbelow, s, rfl, le_trans hle (hkey e he)⟩
  leading hl' := absurd (hl.symm.trans hl') Bool.false_ne_true
  idle := h.idle

/-- A term that starts from `next`, a millisecond past the time in etcd, and
saves `save` ahead of it. -/
theorem Inv.begin (h : Inv st hw) {next save : Int} (hnext : 0 ≤ next)
    (hkey : ∀ e, st.timestampKey = some e → e + millisecond ≤ next) (hsave : next < save) :
    Inv { st with timestampKey := some save, lastSavedTime := save, ts := some ⟨next, 0⟩, leading := true } hw where
  key_nonneg _ he := by cases he; omega
  granted m l hg := by
    obtain ⟨e, he, hm⟩ := h.granted m l hg
    have hle : e ≤ save := by have := hkey e he; unfold millisecond at this; omega
    exact ⟨save, rfl, le_trans hm (Int.ediv_le_ediv (by decide) hle)⟩
  saved a ha := by
    cases ha
    exact ⟨hsave, save, rfl, le_rfl⟩
  leading _ := by
    refine ⟨rfl, _, rfl, hnext, le_rfl, ?_⟩
    -- the last grant is in the millisecond of an earlier time in etcd
    cases hw with
    | bot => exact bot_le
    | coe g =>
      obtain ⟨m, l⟩ := g
      obtain ⟨e, he, hm⟩ := h.granted m l rfl
      have hlt := millisecond_lt (hkey e he)
      exact WithBot.coe_le_coe.mpr (le_of_lt (Prod.Lex.toLex_lt_toLex.mpr (.inl (show m < next / millisecond by omega))))
  idle hl := Bool.noConfusion hl

/-- A committed save in a term, of a time past `lastSavedTime`. -/
theorem Inv.save (h : Inv st hw) (hl : st.leading = true) {s : Int} (hs : st.lastSavedTime ≤ s) :
    Inv { st with timestampKey := some s, lastSavedTime := s } hw := by
  obtain ⟨hkey, a, ha, hp, hlog, hhw⟩ := h.leading hl
  have hsaved := h.key_nonneg _ hkey
  exact {
    key_nonneg := fun _ he => by cases he; omega
    granted := fun m l hg => by
      obtain ⟨e, he, hm⟩ := h.granted m l hg
      rw [hkey] at he
      cases he
      exact ⟨s, rfl, le_trans hm (Int.ediv_le_ediv (by decide) hs)⟩
    saved := fun b hb => by
      obtain ⟨hbelow, -⟩ := h.saved b hb
      exact ⟨lt_of_lt_of_le hbelow hs, s, rfl, le_rfl⟩
    leading := fun _ => ⟨rfl, a, ha, hp, hlog, hhw⟩
    idle := fun hl' => absurd (hl.symm.trans hl') (by decide) }

/-- A term moves `ts` a millisecond or more forward, below `lastSavedTime`. -/
theorem Inv.advance (h : Inv st hw) (hl : st.leading = true) {prev : AtomicObject} (hprev : st.ts = some prev)
    {next : Int} (hnext : prev.physical + millisecond ≤ next) (hsaved : next < st.lastSavedTime) :
    Inv { st with ts := some ⟨next, 0⟩ } hw := by
  obtain ⟨hkey, a, ha, hp, -, hhw⟩ := h.leading hl
  rw [hprev] at ha
  cases ha
  exact {
    key_nonneg := h.key_nonneg
    granted := h.granted
    saved := fun b hb => by
      cases hb
      exact ⟨hsaved, _, hkey, le_rfl⟩
    leading := fun _ => by
      refine ⟨hkey, _, rfl, show 0 ≤ next by unfold millisecond at hnext; omega, le_rfl, le_trans hhw ?_⟩
      -- a later millisecond, whatever the logical parts
      exact WithBot.coe_le_coe.mpr (le_of_lt (Prod.Lex.toLex_lt_toLex.mpr (.inl (millisecond_lt hnext))))
    idle := fun hl' => absurd (hl.symm.trans hl') (by decide) }

/-- A term raises the logical part of `ts`, for a last grant at or below the
raised `ts` and in a millisecond no later than `lastSavedTime`'s. -/
theorem Inv.setLogical (h : Inv st hw) (hl : st.leading = true) {a : AtomicObject} (ha : st.ts = some a)
    {l : Int} (hlog : a.logical ≤ l) {hw' : WithBot (Int ×ₗ Int)} (hle : hw' ≤ ↑(toLex (a.physical / millisecond, l)))
    (hgranted : ∀ m l' : Int, hw' = ↑(toLex (m, l')) → m ≤ st.lastSavedTime / millisecond) :
    Inv { st with ts := some { a with logical := l } } hw' := by
  obtain ⟨hkey, a', ha', hp, hlog₀, -⟩ := h.leading hl
  rw [ha] at ha'
  cases ha'
  exact {
    key_nonneg := h.key_nonneg
    granted := fun m l' hg => ⟨_, hkey, hgranted m l' hg⟩
    saved := fun b hb => by
      cases hb
      exact ⟨(h.saved a ha).1, _, hkey, le_rfl⟩
    leading := fun _ => ⟨hkey, _, rfl, hp, show 0 ≤ l by omega, hle⟩
    idle := fun hl' => absurd (hl.symm.trans hl') (by decide) }

/-- The time `syncTimestamp` starts from, for a reading before `syncHorizon`,
is after the epoch, a millisecond past the time in etcd, and at most a guard
past the times saved. -/
theorem Inv.syncNext_spec (h : Inv st hw) {I c : Int} (hb : Bounded I c st) {now : Int} (hnow₀ : 0 ≤ now)
    (hnow₁ : now < syncHorizon) (hnowc : now ≤ c) (hI : 0 ≤ I) (hfit : c + I < 2 ^ 63) :
    0 ≤ syncNext st.loadTimestamp now ∧
      (∀ e, st.timestampKey = some e → e + millisecond ≤ syncNext st.loadTimestamp now) ∧
      syncNext st.loadTimestamp now ≤ c + I + updateTimestampGuard := by
  unfold loadTimestamp
  cases hkey : st.timestampKey with
  | none =>
    -- an absent key reads as the zero time, long before `now`
    rw [Option.getD_none, syncNext, if_neg (not_lt.mpr (guard_le_subTimeByWallClock_zeroTime hnow₀ hnow₁))]
    refine ⟨hnow₀, fun _ he => ?_, ?_⟩
    · cases he
    · unfold updateTimestampGuard
      omega
  | some e =>
    have he := h.key_nonneg e hkey
    have he' := hb.key_le e hkey
    have hnow : now < 2 ^ 63 := by rw [syncHorizon_eq] at hnow₁; omega
    rw [Option.getD_some, syncNext_of_inRange he (by omega) hnow₀ hnow]
    simp only [Option.some.injEq, forall_eq']
    unfold updateTimestampGuard millisecond
    split_ifs <;> omega

theorem updateNext_spec {prev : AtomicObject} {now next : Int} (hp₀ : 0 ≤ prev.physical) (hp₁ : prev.physical < 2 ^ 63)
    (hn₀ : 0 ≤ now) (hn₁ : now < 2 ^ 63) (h : updateNext prev now = some next) :
    prev.physical + millisecond ≤ next ∧ (next = now ∨ next = prev.physical + millisecond) := by
  unfold updateNext at h
  rw [subTimeByWallClock_of_inRange hn₀ hn₁ hp₀ hp₁] at h
  unfold updateTimestampGuard at h
  split_ifs at h with hjet hlog
  · cases h
    exact ⟨by unfold millisecond; omega, .inl rfl⟩
  · cases h
    exact ⟨le_rfl, .inr rfl⟩

/-! ## `getRespTS` -/

/-- The loop of `getRespTS` on a synced `ts` only adds to its logical part, and
answers, if at all, with a logical part past the old one by `count` or more. -/
theorem getRespTSLoop_spec {count : Int} (hcount : 0 ≤ count) (fuel : Nat) :
    ∀ {st : TsoState} {a : AtomicObject}, st.ts = some a → a.physical ≠ zeroTime →
      ∃ l, a.logical ≤ l ∧ (getRespTSLoop count fuel st).1 = { st with ts := some { a with logical := l } } ∧
        ((getRespTSLoop count fuel st).2 = .error .cannotGetTimestamp ∨
          ((getRespTSLoop count fuel st).2 = .ok ⟨(unixNano a.physical).tdiv millisecond, l⟩ ∧
            a.logical + count ≤ l ∧ l < maxLogical)) := by
  induction fuel with
  | zero =>
    intro st a ha _
    refine ⟨a.logical, le_rfl, ?_, .inl rfl⟩
    obtain ⟨ts, lastSaved, key, leading⟩ := st
    cases ha
    rfl
  | succ fuel ih =>
    intro st a ha hz
    simp only [getRespTSLoop, ha, if_neg hz]
    split_ifs with hmax
    · -- past `maxLogical`: the next attempt starts from the raised logical part
      obtain ⟨l, hl, hst, hres⟩ := @ih { st with ts := some { a with logical := a.logical + count } }
        { a with logical := a.logical + count } rfl hz
      have hl' : a.logical + count ≤ l := hl
      refine ⟨l, by omega, hst, ?_⟩
      rcases hres with hres | ⟨hres, hlog, hlt⟩
      · exact .inl hres
      · have hlog' : a.logical + count + count ≤ l := hlog
        exact .inr ⟨hres, by omega, hlt⟩
    · exact ⟨a.logical + count, by omega, rfl, .inr ⟨rfl, by omega, by omega⟩⟩

/-- A response `ts` for `count` timestamps after the grants up to `hw`. -/
structure GrantPast (hw : WithBot (Int ×ₗ Int)) (ts : Timestamp) (count : UInt32) : Prop where
  /-- its range lies past every earlier grant -/
  past : hw < ↑(ts.first count)
  /-- and is not empty -/
  nonempty : ts.first count ≤ ts.last
  logical_pos : 1 ≤ ts.logical - count.toNat + 1
  logical_lt : ts.logical < maxLogical

theorem GrantPast.mono {hw' : WithBot (Int ×ₗ Int)} {ts : Timestamp} {count : UInt32}
    (h : GrantPast hw' ts count) (hle : hw ≤ hw') : GrantPast hw ts count :=
  { h with past := lt_of_le_of_lt hle h.past }

theorem Inv.getRespTS (h : Inv st hw) {I c : Int} (hb : Bounded I c st) (hc : c < 2 ^ 63) (hl : st.leading = true)
    (count : UInt32) :
    Bounded I c (st.getRespTS count).1 ∧ (∀ e, (st.getRespTS count).2 = .error e → Inv (st.getRespTS count).1 hw) ∧
      ∀ ts, (st.getRespTS count).2 = .ok ts → Inv (st.getRespTS count).1 ↑ts.last ∧ GrantPast hw ts count := by
  obtain ⟨hkey, a, ha, hp, hlog, hhw⟩ := h.leading hl
  unfold TsoState.getRespTS
  split_ifs with hzero
  · exact ⟨hb, fun _ _ => h, fun _ hts => by cases hts⟩
  have hcount : 0 < (count.toNat : Int) := by
    have : count.toNat ≠ 0 := fun h0 => hzero (UInt32.toNat_inj.mp h0)
    omega
  have hz : a.physical ≠ zeroTime := by unfold zeroTime; omega
  obtain ⟨l, hl', hst, hres⟩ := getRespTSLoop_spec (Int.natCast_nonneg count.toNat) maxRetryCount ha hz
  rw [hst]
  have hms : a.physical / millisecond ≤ st.lastSavedTime / millisecond :=
    Int.ediv_le_ediv (by decide) (le_of_lt (h.saved a ha).1)
  refine ⟨hb.setLogical ha l, fun _ _ => h.setLogical hl ha hl' (le_trans hhw ?_) ?_, fun ts hts => ?_⟩
  · exact WithBot.coe_le_coe.mpr (Prod.Lex.toLex_le_toLex.mpr (.inr ⟨rfl, hl'⟩))
  · intro m l' hg
    obtain ⟨e, he, hm⟩ := h.granted m l' hg
    rw [hkey] at he
    cases he
    exact hm
  · rcases hres with hres | ⟨hres, hlog', hlt⟩
    · rw [hres] at hts
      cases hts
    rw [hres] at hts
    cases hts
    -- a time below `2 ^ 63` ns is its own `UnixNano`
    rw [unixNano_of_inRange hp (lt_of_le_of_lt (hb.ts_le a ha) hc), Int.tdiv_eq_ediv_of_nonneg hp]
    refine ⟨h.setLogical hl ha hl' le_rfl ?_, ?_⟩
    · intro m l' hg
      cases WithBot.coe_injective hg
      exact hms
    -- the range starts past `ts`, which is at or past the last grant
    have hfirst : toLex (a.physical / millisecond, a.logical) < toLex (a.physical / millisecond, l - count.toNat + 1) :=
      Prod.Lex.toLex_lt_toLex.mpr (.inr ⟨rfl, by omega⟩)
    exact {
      past := lt_of_le_of_lt hhw (WithBot.coe_lt_coe.mpr hfirst)
      nonempty := Prod.Lex.toLex_le_toLex.mpr (.inr ⟨rfl, show l - count.toNat + 1 ≤ l by omega⟩)
      logical_pos := show 1 ≤ l - count.toNat + 1 by omega
      logical_lt := hlt }

/-! ## Steps and runs -/

/-- The last timestamp granted, after a step that granted `g`. -/
def lastGranted (hw : WithBot (Int ×ₗ Int)) : Option (Timestamp × UInt32) → WithBot (Int ×ₗ Int)
  | none => hw
  | some g => ↑g.1.last

/-- What a step must give: a state that keeps the invariant and the bound `c`
on its times, and a grant past the earlier ones. -/
def StepOk (I c : Int) (hw : WithBot (Int ×ₗ Int)) : Option (TsoState × Option (Timestamp × UInt32)) → Prop
  | none => False
  | some (st', g) => Inv st' (lastGranted hw g) ∧ Bounded I c st' ∧ ∀ ts n, g = some (ts, n) → GrantPast hw ts n

section Step

variable {I c : Int}

theorem stepOk_of_inv {st' : TsoState} (h : Inv st' hw) (hb : Bounded I c st') : StepOk I c hw (some (st', none)) :=
  ⟨h, hb, fun _ _ hg => by cases hg⟩

theorem zero_le_of_syncHorizon_le (hc : syncHorizon ≤ c) : 0 ≤ c := by
  rw [syncHorizon_eq] at hc
  omega

theorem Inv.step_campaign (h : Inv st hw) (hb : Bounded I c st) (hI : updateTimestampGuard < I) (hc : syncHorizon ≤ c)
    {now : Int} (hnow₀ : 0 ≤ now) (hnow₁ : now < syncHorizon) (hfit : c + (I + updateTimestampGuard) + I < 2 ^ 63)
    (o : SaveOutcome) : StepOk I (c + (I + updateTimestampGuard)) hw (st.step I (.campaign now o)) := by
  have hc₀ := zero_le_of_syncHorizon_le hc
  have hms : millisecond = 1000000 := rfl
  have hguard : updateTimestampGuard = 1000000 := rfl
  have h₀ := h.endTerm
  have hl₀ := endTerm_leading st
  have hb₀ := hb.endTerm hc₀
  obtain ⟨hnext, hkey, hle⟩ := h₀.syncNext_spec hb₀ hnow₀ hnow₁ (by omega) (by omega) (by omega)
  have hb₁ := hb₀.mono (show c ≤ c + (I + updateTimestampGuard) by omega)
  have hsave : syncNext st.endTerm.loadTimestamp now < syncNext st.endTerm.loadTimestamp now + I := by omega
  -- the time saved is below `2 ^ 63` ns, so etcd holds it as it is
  have hu : unixNano (syncNext st.endTerm.loadTimestamp now + I) = syncNext st.endTerm.loadTimestamp now + I :=
    unixNano_of_inRange (by omega) (by omega)
  cases o with
  | committed =>
    simp only [step, syncTimestamp, saveTimestamp, hu]
    exact stepOk_of_inv (h₀.begin hnext hkey hsave) (bounded_begin (by omega) (by omega))
  | rejected => exact stepOk_of_inv h₀ hb₁
  | lost =>
    simp only [step, syncTimestamp, saveTimestamp, hu]
    -- the time put is past the one in etcd
    refine stepOk_of_inv (h₀.raiseKey hl₀ (by omega) fun e he => ?_) (hb₁.raiseKey (by omega))
    have := hkey e he
    omega

theorem Inv.step_update (h : Inv st hw) (hb : Bounded I c st) (hI : updateTimestampGuard < I) (hc : syncHorizon ≤ c)
    {now : Int} (hnow₀ : 0 ≤ now) (hnow₁ : now < syncHorizon) (hfit : c + millisecond + I < 2 ^ 63)
    (o : SaveOutcome) : StepOk I (c + millisecond) hw (st.step I (.update now o)) := by
  have hc₀ := zero_le_of_syncHorizon_le hc
  have hms : millisecond = 1000000 := rfl
  have hguard : updateTimestampGuard = 1000000 := rfl
  have hb' := hb.mono (show c ≤ c + millisecond by omega)
  cases hl : st.leading
  · simp only [step, hl]
    exact stepOk_of_inv h hb'
  obtain ⟨hkey, prev, hprev, hp, -, -⟩ := h.leading hl
  have hprev_le := hb.ts_le prev hprev
  have hsaved₀ : 0 ≤ st.lastSavedTime := h.key_nonneg _ hkey
  have hsaved_le := hb.lastSavedTime_le
  simp only [step, if_pos hl, updateTimestamp, hprev]
  cases hnext : updateNext prev now with
  | none => exact stepOk_of_inv h hb'
  | some next =>
    obtain ⟨hadv, hnext_eq⟩ := updateNext_spec hp (by omega) hnow₀ (by omega) hnext
    have hnext_le : next ≤ c + millisecond := by rcases hnext_eq with rfl | rfl <;> omega
    have hnext₀ : 0 ≤ next := by omega
    -- the window check and the save do not wrap
    have hsub : subTimeByWallClock st.lastSavedTime next = st.lastSavedTime - next :=
      subTimeByWallClock_of_inRange hsaved₀ (by omega) hnext₀ (by omega)
    have hu : unixNano (next + I) = next + I := unixNano_of_inRange (by omega) (by omega)
    simp only [hsub]
    split_ifs with hwin
    · -- the window is short: the save must go through before `ts` moves
      have hs : st.lastSavedTime ≤ next + I := by omega
      cases o with
      | committed =>
        simp only [saveTimestamp, hu]
        refine stepOk_of_inv ((h.save hl hs).advance hl hprev hadv ?_) ((hb'.save (by omega)).advance hnext_le)
        show next < next + I
        omega
      | rejected => exact stepOk_of_inv h.endTerm (hb'.endTerm (by omega))
      | lost =>
        simp only [saveTimestamp, hu]
        rw [endTerm_timestampKey]
        refine stepOk_of_inv (h.endTerm.raiseKey (endTerm_leading st) (by omega) fun e he => ?_)
          ((hb'.endTerm (by omega)).raiseKey (by omega))
        rw [timestampKey_endTerm, hkey] at he
        cases he
        exact hs
    · exact stepOk_of_inv (h.advance hl hprev hadv (by omega))
        (hb'.advance hnext_le)

theorem Inv.step_tso (h : Inv st hw) (hb : Bounded I c st) (hc : c < 2 ^ 63) (count : UInt32) :
    StepOk I c hw (st.step I (.tso count)) := by
  cases hl : st.leading
  · simp only [step, hl]
    exact stepOk_of_inv h hb
  obtain ⟨hb', herr, hok⟩ := h.getRespTS hb hc hl count
  simp only [step, hl, if_true]
  cases hres : st.getRespTS count with
  | mk st' r =>
    rw [hres] at herr hok hb'
    cases r with
    | error e => exact stepOk_of_inv (herr e rfl) hb'
    | ok ts =>
      obtain ⟨hinv, hgrant⟩ := hok ts rfl
      refine ⟨hinv, hb', fun ts' n hg => ?_⟩
      cases hg
      exact hgrant

/-- One event keeps the invariant, raises the bound on the times by its drift,
and what it grants lies past every earlier grant. -/
theorem Inv.step (h : Inv st hw) (hb : Bounded I c st) (hI : updateTimestampGuard < I) (hc : syncHorizon ≤ c)
    {ev : Event} (hev : 0 ≤ ev.reading ∧ ev.reading < syncHorizon) (hfit : c + ev.drift I + I < 2 ^ 63) :
    StepOk I (c + ev.drift I) hw (st.step I ev) := by
  cases ev with
  | campaign now o => exact h.step_campaign hb hI hc hev.1 hev.2 hfit o
  | update now o => exact h.step_update hb hI hc hev.1 hev.2 hfit o
  | tso count =>
    simp only [Event.drift, add_zero] at hfit ⊢
    exact h.step_tso hb (by unfold updateTimestampGuard at hI; omega) count
  | resign =>
    simp only [Event.drift, add_zero]
    exact stepOk_of_inv h.endTerm (hb.endTerm (zero_le_of_syncHorizon_le hc))

end Step

theorem le_lastGranted {g : Option (Timestamp × UInt32)} (hg : ∀ ts n, g = some (ts, n) → GrantPast hw ts n) :
    hw ≤ lastGranted hw g := by
  cases g with
  | none => exact le_rfl
  | some g =>
    have hgrant := hg g.1 g.2 rfl
    exact le_of_lt (lt_of_lt_of_le hgrant.past (WithBot.coe_le_coe.mpr hgrant.nonempty))

/-- A run keeps the invariant; its grants lie past `hw`, and each past the
earlier ones. The bound `c` on the times, raised by the drift of every event,
stays below `2 ^ 63` ns. -/
theorem Inv.run {I : Int} (hI : updateTimestampGuard < I) (evs : List Event) :
    ∀ {st : TsoState} {hw : WithBot (Int ×ₗ Int)} {c : Int}, Inv st hw → Bounded I c st → syncHorizon ≤ c →
      c + (evs.map (Event.drift I)).sum + I < 2 ^ 63 → (∀ e ∈ evs, 0 ≤ e.reading ∧ e.reading < syncHorizon) →
      ∃ st' hw' gs, st.run I evs = some (st', gs) ∧ Inv st' hw' ∧ (∀ g ∈ gs, GrantPast hw g.1 g.2) ∧
        gs.Pairwise (fun g₁ g₂ => g₁.1.last < g₂.1.first g₂.2) := by
  induction evs with
  | nil => exact fun h _ _ _ _ => ⟨_, _, [], rfl, h, fun _ hg => absurd hg List.not_mem_nil, List.Pairwise.nil⟩
  | cons ev evs ih =>
    intro st hw c h hb hc hfit hev
    have hI₀ : 0 ≤ I := by unfold updateTimestampGuard at hI; omega
    -- the rest of the run drifts no less than nothing
    have hrest : 0 ≤ (evs.map (Event.drift I)).sum :=
      List.sum_nonneg fun x hx => by
        obtain ⟨e, -, rfl⟩ := List.mem_map.mp hx
        exact e.drift_nonneg hI₀
    rw [List.map_cons, List.sum_cons] at hfit
    have hd := ev.drift_nonneg hI₀
    have hs := h.step hb hI hc (hev ev List.mem_cons_self) (by omega)
    cases hstep : st.step I ev with
    | none => rw [hstep] at hs; exact hs.elim
    | some r =>
      obtain ⟨st₁, g⟩ := r
      rw [hstep] at hs
      obtain ⟨h₁, hb₁, hg⟩ := hs
      obtain ⟨st', hw', gs, hrun, h', hpast, hpair⟩ :=
        ih h₁ hb₁ (by omega) (by omega) fun e he => hev e (List.mem_cons_of_mem _ he)
      refine ⟨st', hw', g.toList ++ gs, ?_, h', ?_, ?_⟩
      · simp only [TsoState.run, hstep, hrun, Option.map_some]
      · intro x hx
        rcases List.mem_append.mp hx with hx | hx
        · exact hg x.1 x.2 (Option.mem_toList.mp hx)
        · exact (hpast x hx).mono (le_lastGranted hg)
      · refine List.pairwise_append.mpr ⟨?_, hpair, fun x hx y hy => ?_⟩
        · cases g <;> simp
        -- the grant of this step is the `hw` of the rest of the run
        cases Option.mem_toList.mp hx
        exact WithBot.coe_lt_coe.mp (hpast y hy).past

end TsoState

/-! ## The client's timestamps -/

theorem pairwise_finishTSORequest (requests : Nat) (physical firstLogical : Int) :
    (finishTSORequest requests physical firstLogical).Pairwise (· < ·) := by
  unfold finishTSORequest
  refine List.pairwise_map.mpr (List.pairwise_lt_range.imp fun hij => ?_)
  exact Prod.Lex.toLex_lt_toLex.mpr (.inr ⟨rfl, by omega⟩)

theorem mem_finishTSORequest {requests : Nat} {physical firstLogical : Int} {x : Int ×ₗ Int}
    (hx : x ∈ finishTSORequest requests physical firstLogical) :
    ∃ i < requests, x = toLex (physical, firstLogical + i) := by
  obtain ⟨i, hi, rfl⟩ := List.mem_map.mp hx
  exact ⟨i, List.mem_range.mp hi, rfl⟩

namespace TsoState

variable {hw : WithBot (Int ×ₗ Int)} {ts : Timestamp} {count : UInt32}

/-- The client takes a response for a batch of `count` requests: the count check
passes. -/
theorem processTSORequests_count (ts : Timestamp) (count : UInt32) :
    processTSORequests count.toNat count ts =
      .ok (finishTSORequest count.toNat ts.physical (ts.logical - (count - 1).toNat)) := by
  unfold PlacementDriver.Server.processTSORequests
  rw [if_neg (by simp)]

/-- The timestamps the client hands out for a grant are those of its range. -/
theorem GrantPast.mem_finishTSORequest (h : GrantPast hw ts count) {x : Int ×ₗ Int}
    (hx : x ∈ finishTSORequest count.toNat ts.physical (ts.logical - (count - 1).toNat)) :
    ts.first count ≤ x ∧ x ≤ ts.last := by
  obtain ⟨i, hi, rfl⟩ := Server.mem_finishTSORequest hx
  have hpos := h.nonempty
  unfold Timestamp.first Timestamp.last at hpos ⊢
  rw [Prod.Lex.toLex_le_toLex] at hpos
  -- a non-empty range has a count of one or more
  have hone : (1 : UInt32) ≤ count := by
    rw [UInt32.le_iff_toNat_le]
    simp only [UInt32.toNat_one]
    omega
  rw [UInt32.toNat_sub_of_le _ _ hone, UInt32.toNat_one]
  constructor
  · exact Prod.Lex.toLex_le_toLex.mpr (.inr ⟨rfl, by omega⟩)
  · exact Prod.Lex.toLex_le_toLex.mpr (.inr ⟨rfl, by omega⟩)

end TsoState

/-! ## Monotonicity -/

/-- A term started in November 2023, with the default save interval of `3 s`. -/
def demoEvents : List Event := [.campaign 1700000000000000000 .committed, .tso 1]

/-- A term that starts half a millisecond before the epoch and moves to
`0.6 ms` after it. -/
def preEpochEvents : List Event :=
  [.campaign (-500000) .committed, .tso 1, .update 600000 .committed, .tso 1]

/-- Three terms, each started at the epoch. -/
def epochTerms : List Event :=
  [.campaign 0 .committed, .tso 1, .campaign 0 .committed, .tso 1, .campaign 0 .committed, .tso 1]

end Server

end PlacementDriver
