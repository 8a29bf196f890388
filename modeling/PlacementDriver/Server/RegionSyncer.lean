import PlacementDriver.Core.RegionInfo

/-!
# The region syncer

`server/region_syncer`. The leader's `RunServer` takes the regions changed by
heartbeats from a channel, records each in its history buffer and broadcasts
them in one `SyncRegionResponse`. A follower's `StartSyncWithLeader` receives
those responses and saves each region to its own region storage; its history
buffer is what it would serve incremental syncs from once it becomes leader.

The history buffer is a ring of `size` slots, one of them always empty, with
`head` and `tail` positions and `index`, the number of the next record. A
record is written at `tail`; when the ring is full the oldest one is dropped
by moving `head`. Every `defaultFlushCount` records the index is saved to the
KV store, from which `newHistoryBuffer` reloads it.

What the ring is for is `BoundedLog`: the regions recorded since the reload,
numbered on from the reloaded index, of which the last `capacity` can be read
back. `Refines` ties the two: offset `n` of the log sits in slot `n % size`,
and `head` and `tail` are the slots of the oldest record kept and of the next
one. Every record keeps it (`Refines.record`), and `get` then reads the log
(`Refines.get_eq`) while the numbers stay below `2 ^ 64`.

The follower's loop records a region when `SaveRegion` returns an error, not
when it succeeds (`syncWithLeader_eq`): with every save successful its history
stays as it was, while the leader's has advanced by each region it sent.

`index` is a `uint64`, as in the source: `record` wraps it past
`2 ^ 64 - 1`, and `get` compares in `uint64`. A reloaded index can stand
anywhere, since `reload` takes whatever `ParseUint` reads. Once the kept
records straddle the wrap, `firstIndex` lies above `nextIndex` and `get`
returns `nil` for every number (`Refines.get_eq_none_of_wraps`). The KV store
of the buffer is its one key `historyKey`, `persisted`, and its saves are taken
to succeed (their error is only logged).
-/

namespace PlacementDriver.Syncer

open Metapb

/-- `defaultFlushCount`. -/
def defaultFlushCount : Int := 100

/-- `defaultHistoryBufferSize`. -/
def defaultHistoryBufferSize : Int := 10000

/-- `historyBuffer`. -/
structure HistoryBuffer where
  index : UInt64
  records : List (Option RegionInfo)
  head : Nat
  tail : Nat
  size : Nat
  flushCount : Int
  /-- The value of `historyKey` in the KV store. -/
  persisted : Option UInt64

/-- `newHistoryBuffer(size, kv)`; `stored` is the index `reload` reads under
`historyKey`, if any. -/
def newHistoryBuffer (size : Int) (stored : Option UInt64) : HistoryBuffer :=
  -- `size++` makes room for the empty slot, and the ring has at least two
  let size := (max (size + 1) 2).toNat
  { index := stored.getD 0
    records := List.replicate size none
    head := 0
    tail := 0
    size := size
    flushCount := defaultFlushCount
    persisted := stored }

namespace HistoryBuffer

variable (h : HistoryBuffer)

def len : Nat := if h.tail < h.head then h.tail + h.size - h.head else h.tail - h.head

def nextIndex : UInt64 := h.index

def firstIndex : UInt64 := h.index - h.len.toUInt64

/-- `persist`: save the next index under `historyKey`. -/
def persist : HistoryBuffer := { h with persisted := some h.nextIndex }

/-- The write of `record`: the region at `tail`, and `tail` one slot on. -/
def push (r : RegionInfo) : HistoryBuffer :=
  { h with records := h.records.set h.tail (some r), tail := (h.tail + 1) % h.size }

/-- The end of `record`: the index one on, and a save every
`defaultFlushCount` records. -/
def countRecord : HistoryBuffer :=
  let h := { h with index := h.index + 1, flushCount := h.flushCount - 1 }
  if h.flushCount ≤ 0 then { h.persist with flushCount := defaultFlushCount } else h

/-- `record`: a full ring drops its oldest record by moving `head`. -/
def record (r : RegionInfo) : HistoryBuffer :=
  let h := h.push r
  let h := if h.tail = h.head then { h with head := (h.head + 1) % h.size } else h
  h.countRecord

/-- `get(index)`: the record of that number, while the ring still holds it.
In this branch `index - firstIndex` is below `len`, so `int` keeps it. -/
def get (index : UInt64) : Option RegionInfo :=
  if index < h.nextIndex ∧ index ≥ h.firstIndex then
    (h.records.getD ((h.head + (index - h.firstIndex).toNat) % h.size) none)
  else none

/-! ## The index -/

variable {h}

@[simp] theorem nextIndex_countRecord : h.countRecord.nextIndex = h.nextIndex + 1 := by
  unfold countRecord
  dsimp only
  split <;> rfl

@[simp] theorem nextIndex_record (r : RegionInfo) : (h.record r).nextIndex = h.nextIndex + 1 := by
  unfold record
  dsimp only
  rw [nextIndex_countRecord]
  split <;> rfl

/-- Each record numbers one more region, modulo `2 ^ 64`. -/
theorem nextIndex_foldl_record (regions : List RegionInfo) :
    (regions.foldl record h).nextIndex = h.nextIndex + regions.length.toUInt64 := by
  induction regions generalizing h with
  | nil => simp
  | cons r regions ih =>
    have hsucc : (regions.length + 1).toUInt64 = 1 + regions.length.toUInt64 := by simp [UInt64.add_comm]
    rw [List.foldl_cons, ih, nextIndex_record, List.length_cons, hsucc, UInt64.add_assoc]

/-! ## The slots a record touches -/

@[simp] theorem records_countRecord : h.countRecord.records = h.records := by
  unfold countRecord
  dsimp only
  split <;> rfl

@[simp] theorem head_countRecord : h.countRecord.head = h.head := by
  unfold countRecord
  dsimp only
  split <;> rfl

@[simp] theorem tail_countRecord : h.countRecord.tail = h.tail := by
  unfold countRecord
  dsimp only
  split <;> rfl

@[simp] theorem size_countRecord : h.countRecord.size = h.size := by
  unfold countRecord
  dsimp only
  split <;> rfl

@[simp] theorem records_record (r : RegionInfo) : (h.record r).records = h.records.set h.tail (some r) := by
  unfold record
  dsimp only
  rw [records_countRecord]
  split <;> rfl

@[simp] theorem tail_record (r : RegionInfo) : (h.record r).tail = (h.tail + 1) % h.size := by
  unfold record
  dsimp only
  rw [tail_countRecord]
  split <;> rfl

@[simp] theorem size_record (r : RegionInfo) : (h.record r).size = h.size := by
  unfold record
  dsimp only
  rw [size_countRecord]
  split <;> rfl

theorem head_record (r : RegionInfo) :
    (h.record r).head = if (h.tail + 1) % h.size = h.head then (h.head + 1) % h.size else h.head := by
  unfold record
  dsimp only
  rw [head_countRecord, apply_ite HistoryBuffer.head]
  rfl

end HistoryBuffer

/-! ## The ring as a bounded log -/

/-- The distance `len` measures from slot `a % s` on to slot `(a + k) % s`
is `k`, while `k < s`: the ring wraps at most once. -/
theorem ring_distance {a k s : Nat} (hk : k < s) :
    (if (a + k) % s < a % s then (a + k) % s + s - a % s else (a + k) % s - a % s) = k := by
  have hr : a % s < s := Nat.mod_lt a (by omega)
  rw [Nat.add_mod, Nat.mod_eq_of_lt hk]
  by_cases hlt : a % s + k < s
  · rw [Nat.mod_eq_of_lt hlt]
    split <;> omega
  · rw [Nat.mod_eq_sub_mod (by omega), Nat.mod_eq_of_lt (by omega)]
    split <;> omega

/-- Offsets fewer than `s` apart fall in different slots. -/
theorem mod_ne_of_sub_lt {n m s : Nat} (hnm : n < m) (hs : m - n < s) : n % s ≠ m % s := by
  intro heq
  have hdvd : s ∣ m - n := Nat.dvd_of_mod_eq_zero (Nat.sub_mod_eq_zero_of_mod_eq heq.symm)
  have hzero := Nat.eq_zero_of_dvd_of_lt hdvd hs
  omega

/-- What the history buffer stands for: the regions recorded since the index
was reloaded at `start`, numbered on from it, of which the last `capacity`
can still be read back. -/
structure BoundedLog where
  start : Nat
  capacity : Nat
  log : List RegionInfo

namespace BoundedLog

variable (l : BoundedLog)

/-- The number of the next record. -/
def next : Nat := l.start + l.log.length

/-- How many records are kept. -/
def kept : Nat := min l.log.length l.capacity

/-- The offset in `log` of the oldest record kept. -/
def dropped : Nat := l.log.length - l.kept

def record (r : RegionInfo) : BoundedLog := { l with log := l.log ++ [r] }

/-- The record numbered `j`, while it is kept. -/
def get (j : Nat) : Option RegionInfo :=
  if l.start + l.dropped ≤ j ∧ j < l.next then l.log[j - l.start]? else none

theorem kept_le_next : l.kept ≤ l.next := by
  unfold kept next
  omega

theorem length_record (r : RegionInfo) : (l.record r).log.length = l.log.length + 1 := by
  simp [record]

theorem next_record (r : RegionInfo) : (l.record r).next = l.next + 1 := by
  simp only [next, length_record]
  rfl

theorem dropped_record (r : RegionInfo) :
    (l.record r).dropped = l.log.length + 1 - min (l.log.length + 1) l.capacity := by
  simp only [dropped, kept, length_record]
  rfl

end BoundedLog

namespace HistoryBuffer

/-- The ring holds the kept records of `l`: offset `n` of the log sits in
slot `n % size`, `head` is the slot of the oldest record kept and `tail` that
of the next one. -/
structure Refines (h : HistoryBuffer) (l : BoundedLog) : Prop where
  size_eq : h.size = l.capacity + 1
  length_records : h.records.length = h.size
  index_eq : h.index = l.next.toUInt64
  head_eq : h.head = l.dropped % h.size
  tail_eq : h.tail = l.log.length % h.size
  slot : ∀ n, l.dropped ≤ n → n < l.log.length → h.records.getD (n % h.size) none = l.log[n]?

variable {h : HistoryBuffer} {l : BoundedLog}

theorem refines_newHistoryBuffer {c : Int} (hc : 1 ≤ c) (stored : Option UInt64) :
    Refines (newHistoryBuffer c stored) ⟨(stored.getD 0).toNat, c.toNat, []⟩ := by
  have hsize : (newHistoryBuffer c stored).size = c.toNat + 1 := by
    show (max (c + 1) 2).toNat = c.toNat + 1
    omega
  refine ⟨hsize, ?_, ?_, ?_, ?_, fun n _ hn => absurd hn (Nat.not_lt_zero n)⟩
  · simp [newHistoryBuffer]
  · simp [newHistoryBuffer, BoundedLog.next]
  · simp [newHistoryBuffer, BoundedLog.dropped]
  · simp [newHistoryBuffer]

namespace Refines

variable (hr : Refines h l)
include hr

theorem size_pos : 0 < h.size := by
  rw [hr.size_eq]
  omega

theorem head_lt : h.head < h.size := by
  rw [hr.head_eq]
  exact Nat.mod_lt _ hr.size_pos

theorem tail_lt : h.tail < h.size := by
  rw [hr.tail_eq]
  exact Nat.mod_lt _ hr.size_pos

theorem len_eq : h.len = l.kept := by
  have hkept : l.log.length = l.dropped + l.kept := by
    unfold BoundedLog.dropped BoundedLog.kept
    omega
  have hlt : l.kept < h.size := by
    rw [hr.size_eq]
    unfold BoundedLog.kept
    omega
  unfold len
  rw [hr.head_eq, hr.tail_eq, hkept]
  exact ring_distance hlt

/-- The index is the number of the next record, modulo `2 ^ 64`. -/
theorem toNat_nextIndex : h.nextIndex.toNat = l.next % 2 ^ 64 := by
  rw [nextIndex, hr.index_eq, UInt64.toNat_ofNat']

/-- Below `2 ^ 64` the first index is the number of the oldest record kept. -/
theorem toNat_firstIndex (hbound : l.next < 2 ^ 64) : h.firstIndex.toNat = l.start + l.dropped := by
  have hnext : h.index.toNat = l.next := by
    rw [← nextIndex, hr.toNat_nextIndex, Nat.mod_eq_of_lt hbound]
  have hlen : h.len.toUInt64.toNat = l.kept := by
    rw [hr.len_eq, UInt64.toNat_ofNat', Nat.mod_eq_of_lt (by have := l.kept_le_next; omega)]
  unfold firstIndex
  rw [UInt64.toNat_sub_of_le _ _ (by rw [UInt64.le_iff_toNat_le, hlen, hnext]; exact l.kept_le_next), hlen, hnext]
  unfold BoundedLog.next BoundedLog.dropped BoundedLog.kept
  omega

/-- `get` reads the bounded log while the numbers stay below `2 ^ 64`: the
slot of record `j` is `(j - start) % size`. -/
theorem get_eq (hbound : l.next < 2 ^ 64) (j : UInt64) : h.get j = l.get j.toNat := by
  have hnext : h.nextIndex.toNat = l.next := by rw [hr.toNat_nextIndex, Nat.mod_eq_of_lt hbound]
  have hfirst := hr.toNat_firstIndex hbound
  have hcond : (j < h.nextIndex ∧ j ≥ h.firstIndex) ↔ (l.start + l.dropped ≤ j.toNat ∧ j.toNat < l.next) := by
    rw [ge_iff_le, UInt64.lt_iff_toNat_lt, UInt64.le_iff_toNat_le, hnext, hfirst, and_comm]
  unfold get BoundedLog.get
  by_cases hj : l.start + l.dropped ≤ j.toNat ∧ j.toNat < l.next
  · have hoff : (j - h.firstIndex).toNat = j.toNat - (l.start + l.dropped) := by
      rw [UInt64.toNat_sub_of_le _ _ (by rw [UInt64.le_iff_toNat_le, hfirst]; exact hj.1), hfirst]
    have hslot : (h.head + (j - h.firstIndex).toNat) % h.size = (j.toNat - l.start) % h.size := by
      rw [hoff, hr.head_eq, Nat.mod_add_mod]
      congr 1
      omega
    rw [if_pos (hcond.mpr hj), if_pos hj, hslot]
    exact hr.slot (j.toNat - l.start) (by omega) (by unfold BoundedLog.next at hj; omega)
  · rw [if_neg (mt hcond.mp hj), if_neg hj]

/-- Once the kept records straddle `2 ^ 64`, the first index wraps above the
next one and `get` finds nothing, though the ring still holds them. The ring
has fewer than `2 ^ 64` slots, as a Go `int` counts them. -/
theorem get_eq_none_of_wraps (hcap : l.capacity < 2 ^ 64) (hlow : l.start + l.dropped < 2 ^ 64)
    (hhigh : 2 ^ 64 ≤ l.next) (j : UInt64) : h.get j = none := by
  have hkept : l.kept < 2 ^ 64 := by
    unfold BoundedLog.kept
    omega
  have hnext : h.nextIndex.toNat = l.next - 2 ^ 64 := by
    rw [hr.toNat_nextIndex, Nat.mod_eq_sub_mod hhigh, Nat.mod_eq_of_lt (by
      unfold BoundedLog.next BoundedLog.dropped BoundedLog.kept at *
      omega)]
  -- `index - len` borrows across zero, landing on the oldest number kept
  have hfirst : h.firstIndex.toNat = l.start + l.dropped := by
    have hlen : h.len.toUInt64.toNat = l.kept := by
      rw [hr.len_eq, UInt64.toNat_ofNat', Nat.mod_eq_of_lt hkept]
    unfold firstIndex
    rw [UInt64.toNat_sub, hlen, ← nextIndex, hnext]
    unfold BoundedLog.next BoundedLog.dropped BoundedLog.kept at *
    rw [Nat.mod_eq_of_lt (by omega)]
    omega
  unfold get
  rw [if_neg]
  rw [ge_iff_le, UInt64.lt_iff_toNat_lt, UInt64.le_iff_toNat_le, hnext, hfirst]
  unfold BoundedLog.next BoundedLog.dropped BoundedLog.kept at *
  omega

theorem tail_succ_mod : (h.tail + 1) % h.size = (l.log.length + 1) % h.size := by
  rw [hr.tail_eq, Nat.mod_add_mod]

/-- `head` moves on exactly when the ring was full, onto the slot of the new
oldest record. -/
theorem head_record_eq (r : RegionInfo) : (h.record r).head = (l.record r).dropped % h.size := by
  have hdropped : l.dropped = l.log.length - min l.log.length l.capacity := rfl
  rw [head_record, hr.tail_succ_mod, hr.head_eq, l.dropped_record r]
  by_cases hfull : l.capacity ≤ l.log.length
  · have hwrap : (l.log.length + 1) % h.size = l.dropped % h.size := by
      rw [show l.log.length + 1 = l.dropped + h.size by rw [hdropped, hr.size_eq]; omega, Nat.add_mod_right]
    rw [if_pos hwrap, Nat.mod_add_mod, hdropped]
    congr 1
    omega
  · have hzero : l.dropped = 0 := by rw [hdropped]; omega
    have hne : (l.log.length + 1) % h.size ≠ 0 % h.size := by
      rw [Nat.mod_eq_of_lt (by rw [hr.size_eq]; omega), Nat.zero_mod]
      omega
    rw [hzero, if_neg hne]
    congr 1
    omega

theorem record (r : RegionInfo) : Refines (h.record r) (l.record r) := by
  have hs := hr.size_pos
  have hdropped : l.dropped = l.log.length - min l.log.length l.capacity := rfl
  refine ⟨by rw [size_record, hr.size_eq]; rfl, by rw [records_record, List.length_set, hr.length_records, size_record],
    by rw [← nextIndex, nextIndex_record, nextIndex, hr.index_eq, l.next_record r]; simp,
    by rw [hr.head_record_eq r, size_record], by rw [tail_record, size_record, hr.tail_succ_mod, l.length_record r], ?_⟩
  intro n hn hlt
  rw [records_record, size_record, hr.tail_eq]
  rw [l.length_record r] at hlt
  rw [l.dropped_record r] at hn
  by_cases hnew : n = l.log.length
  · subst hnew
    rw [List.getD_eq_getElem?_getD, List.getElem?_set_self (by rw [hr.length_records]; exact Nat.mod_lt _ hs)]
    simp [BoundedLog.record]
  · -- an older record that is still kept: its slot is not the one written
    have hold : n < l.log.length := by omega
    have hne : l.log.length % h.size ≠ n % h.size :=
      (mod_ne_of_sub_lt hold (by rw [hr.size_eq]; omega)).symm
    rw [List.getD_eq_getElem?_getD, List.getElem?_set_ne hne, ← List.getD_eq_getElem?_getD,
      hr.slot n (by rw [hdropped]; omega) hold]
    simp [BoundedLog.record, List.getElem?_append_left hold]

end Refines

/-- A run of records keeps the refinement, the log growing by the regions
recorded. -/
theorem Refines.foldl_record {start capacity : Nat} {log : List RegionInfo} (hr : Refines h ⟨start, capacity, log⟩)
    (rs : List RegionInfo) : Refines (rs.foldl HistoryBuffer.record h) ⟨start, capacity, log ++ rs⟩ := by
  induction rs generalizing h log with
  | nil => simpa using hr
  | cons r rs ih =>
    rw [List.foldl_cons, ← List.singleton_append, ← List.append_assoc]
    exact ih (hr.record r)

end HistoryBuffer

open HistoryBuffer

/-- The leader's `RunServer` for one batch from the notifier: each region
is recorded, and the batch is broadcast as one response. -/
def runServerBatch (h : HistoryBuffer) (batch : List RegionInfo) : HistoryBuffer × List Region :=
  (batch.foldl record h, batch.map RegionInfo.regionMeta)

/-- The body of `StartSyncWithLeader`'s loop over one response. Each region
comes with whether `SaveRegion` succeeded on it, and `err != nil` decides the
record. -/
def syncRegions (h : HistoryBuffer) (regions : List (Region × Bool)) : HistoryBuffer :=
  regions.foldl (fun h (region, saved) => if saved then h else h.record (newRegionInfo region none)) h

/-- `StartSyncWithLeader` over the responses it receives, across reconnects,
which leave the history alone. -/
def syncWithLeader (h : HistoryBuffer) (resps : List (List (Region × Bool))) : HistoryBuffer :=
  resps.foldl syncRegions h

theorem syncRegions_eq (h : HistoryBuffer) (regions : List (Region × Bool)) :
    syncRegions h regions =
      ((regions.filter fun p => !p.2).map fun p => newRegionInfo p.1 none).foldl record h := by
  induction regions generalizing h with
  | nil => rfl
  | cons p regions ih =>
    obtain ⟨region, saved⟩ := p
    cases saved
    · exact ih _
    · exact ih h

/-- The follower records exactly the regions whose save failed, in the order
received. -/
theorem syncWithLeader_eq (h : HistoryBuffer) (resps : List (List (Region × Bool))) :
    syncWithLeader h resps =
      ((resps.flatten.filter fun p => !p.2).map fun p => newRegionInfo p.1 none).foldl record h := by
  induction resps generalizing h with
  | nil => rfl
  | cons regions resps ih =>
    rw [syncWithLeader, List.foldl_cons, ← syncWithLeader, ih, syncRegions_eq, List.flatten_cons,
      List.filter_append, List.map_append, List.foldl_append]

/-! ## A save that succeeds -/

/-- The history of a syncer with nothing persisted. -/
def freshHistory : HistoryBuffer := newHistoryBuffer defaultHistoryBufferSize none

/-- A one-peer region over the whole key space. -/
def wholeRegion : Region := ⟨1, [], [], ⟨1, 1⟩, [⟨1, 1, false⟩]⟩

theorem follower_records_failed_saves :
    (∀ (h : HistoryBuffer) (resps : List (List (Region × Bool))),
      syncWithLeader h resps =
        ((resps.flatten.filter fun p => !p.2).map fun p => newRegionInfo p.1 none).foldl record h) ∧
    (∀ (h : HistoryBuffer) (regions : List RegionInfo),
      (regions.foldl record h).nextIndex = h.nextIndex + regions.length.toUInt64) ∧
    (runServerBatch freshHistory [newRegionInfo wholeRegion none]).2 = [wholeRegion] ∧
    (runServerBatch freshHistory [newRegionInfo wholeRegion none]).1.nextIndex = 1 ∧
    (syncWithLeader freshHistory [[(wholeRegion, true)]]).nextIndex = 0 := by
  refine ⟨syncWithLeader_eq, fun h regions => nextIndex_foldl_record regions, rfl, ?_, rfl⟩
  rw [runServerBatch, nextIndex_foldl_record]
  rfl

end PlacementDriver.Syncer
