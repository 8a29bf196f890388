import PlacementDriver.Core.RegionsInfoInvariant
import PlacementDriver.Go.Strings

/-!
# Loading the region cache from the KV store

`loadRegions` (`region_kv.go`) reads the regions saved under `raft/r/` back
into `RegionsInfo` a page at a time: `LoadRange` from the path of the cursor
`nextID` to the path of `math.MaxUint64`, at most `rangeLimit` values. Each
value is decoded, the cursor moves past its id, the region goes to
`SetRegion`, and the stored paths of the cached regions it overlaps are
deleted. A failed `LoadRange` halves the limit and tries again while the limit
is at least `minKVRangeLimit`; a page shorter than the limit ends the loop.

`KVBase` is the store as the loop sees it, over a state `σ`, and the protobuf
`Unmarshal` is a parameter `unmarshal`. `KVBase.Lawful` says what a store such
as `memoryKV` does: its content is a key-sorted list, `LoadRange` returns the
values of the first `limit` keys of the range, and `Delete` removes its key.
The loop runs on fuel, and `LoadState.passed` records, for the proofs, the
regions handed to `SetRegion`.

Three facts carry the proof. `%020d` writes every `uint64` in exactly twenty
digits, so the paths are ordered as the ids (`regionPath_lt_regionPath_iff`).
When every key of the region range is a region's path, the cursor just past
the first region ahead sees the rest (`ahead_succ`), so a page moves the
cursor past exactly the entries it read. A deleted region was cached before,
so its path lies behind the cursor and what lies ahead is unchanged. The
measure is the number of entries ahead plus the halvings left. `SetRegion`
never panics here, whatever the stored ranges: a region ahead of the cursor is
not cached yet, so there is no origin to remove, and the overlaps it reports
are cached items (`TreeCached.setRegion`).

The loop relies on the page being the whole front of the range: a store that
may return fewer than `limit` values while more lie ahead
(`KVBase.LoadsAtMost`) can end it before it has read them.

## Main results

* `regionPath_lt_regionPath_iff`: region paths compare as region ids.
* `Cursor.loadPage_spec`: one page keeps the loop's invariant and moves the
  cursor past it.
* `Cursor.loadRegionsLoop_spec`: the run lemma, with its fuel bound.
-/

namespace PlacementDriver

open Metapb RegionsInfo RegionTree Go.Fmt

/-! ## Paths and limits -/

/-- `clusterPath`. -/
def clusterPath : String := "raft"

/-- `regionPath(regionID)`: `path.Join(clusterPath, "r", fmt.Sprintf("%020d",
regionID))`. No part holds a slash or a dot for `Join` to clean. -/
def regionPath (regionID : UInt64) : String :=
  clusterPath ++ "/r/" ++ String.ofList (zeroPadded 20 regionID.toNat)

/-- `maxKVRangeLimit`. -/
def maxKVRangeLimit : Nat := 10000

/-- `minKVRangeLimit`. -/
def minKVRangeLimit : Nat := 100

/-- `math.MaxUint64`. -/
def maxUint64 : UInt64 := 18446744073709551615

theorem toNat_lt_ten_pow (id : UInt64) : id.toNat < 10 ^ 20 :=
  lt_of_lt_of_le (UInt64.toNat_lt id) (by norm_num)

theorem toList_regionPath (regionID : UInt64) :
    (regionPath regionID).toList = (clusterPath ++ "/r/").toList ++ zeroPadded 20 regionID.toNat := by
  rw [regionPath, String.toList_append, String.toList_ofList]

/-- `%020d` writes every `uint64` in twenty digits, so paths compare as ids. -/
theorem regionPath_lt_regionPath_iff {a b : UInt64} : regionPath a < regionPath b ↔ a < b := by
  rw [String.lt_iff_toList_lt, toList_regionPath, toList_regionPath,
    Go.Strings.append_lt_append_left_iff,
    zeroPadded_lt_zeroPadded_iff (by norm_num) (toNat_lt_ten_pow a) (toNat_lt_ten_pow b),
    UInt64.lt_iff_toNat_lt]

theorem regionPath_le_regionPath_iff {a b : UInt64} : regionPath a ≤ regionPath b ↔ a ≤ b := by
  rw [← not_lt, regionPath_lt_regionPath_iff, UInt64.not_lt]

theorem regionPath_zero_le (id : UInt64) : regionPath 0 ≤ regionPath id :=
  regionPath_le_regionPath_iff.mpr (UInt64.le_iff_toNat_le.mpr (Nat.zero_le _))

/-- The cursor after a region below `math.MaxUint64` does not wrap. -/
theorem toNat_add_one {id : UInt64} (h : id < maxUint64) : (id + 1).toNat = id.toNat + 1 := by
  have hlt : id.toNat < 18446744073709551615 := UInt64.lt_iff_toNat_lt.mp h
  rw [UInt64.toNat_add, UInt64.toNat_one]
  omega

/-! ## The store and the loop -/

/-- `KVBase`, with the two methods `loadRegions` calls, over a store whose
state is a `σ` and whose calls fail with an `ε`. -/
structure KVBase (σ ε : Type) where
  loadRange : σ → String → String → Nat → Except ε (List String)
  delete : σ → String → Except ε σ

variable {σ ε : Type}

/-- `deleteRegion(kv, region)`. -/
def deleteRegion (kv : KVBase σ ε) (s : σ) (region : Region) : Except ε σ :=
  kv.delete s (regionPath region.id)

/-- The variables of `loadRegions`: the store, the cache, the cursor
`nextID`, the page size `rangeLimit`, and the regions passed to `SetRegion` so
far, which the code does not keep. -/
structure LoadState (σ : Type) where
  kv : σ
  regions : RegionsInfo
  nextID : UInt64
  rangeLimit : Nat
  passed : List Region

/-- The loop over the overlaps of one region: `deleteRegion` of each, up to
the first error. -/
def deleteOverlaps (kv : KVBase σ ε) (s : σ) : List Region → Except ε Unit × σ
  | [] => (.ok (), s)
  | item :: items =>
      match deleteRegion kv s item with
      | .error e => (.error e, s)
      | .ok s => deleteOverlaps kv s items

/-- The loop over one page: decode each value, move the cursor past its id,
cache the region, and delete the paths of the cached regions it overlaps.
`none` is the panic of `SetRegion`. -/
def loadPage (unmarshal : String → Except ε Region) (kv : KVBase σ ε) :
    List String → LoadState σ → Option (Except ε Unit × LoadState σ)
  | [], st => some (.ok (), st)
  | value :: res, st =>
      match unmarshal value with
      | .error e => some (.error e, st)
      | .ok region =>
          match st.regions.setRegion (newRegionInfo region none) with
          | none => none
          | some (regions, overlaps) =>
              let st := { st with
                regions := regions
                nextID := region.id + 1
                passed := st.passed ++ [region] }
              match deleteOverlaps kv st.kv overlaps with
              | (.error e, s) => some (.error e, { st with kv := s })
              | (.ok (), s) => loadPage unmarshal kv res { st with kv := s }

/-- The `for` loop of `loadRegions`, on fuel; `none` when the fuel runs out or
`SetRegion` panics. -/
def loadRegionsLoop (unmarshal : String → Except ε Region) (kv : KVBase σ ε) :
    Nat → LoadState σ → Option (Except ε Unit × LoadState σ)
  | 0, _ => none
  | fuel + 1, st =>
      match kv.loadRange st.kv (regionPath st.nextID) (regionPath maxUint64) st.rangeLimit with
      | .error e =>
          -- `rangeLimit /= 2`, and another try while it is at least `minKVRangeLimit`
          let st := { st with rangeLimit := st.rangeLimit / 2 }
          if minKVRangeLimit ≤ st.rangeLimit then loadRegionsLoop unmarshal kv fuel st
          else some (.error e, st)
      | .ok res =>
          match loadPage unmarshal kv res st with
          | none => none
          | some (.error e, st) => some (.error e, st)
          | some (.ok (), st) =>
              if res.length < st.rangeLimit then some (.ok (), st)
              else loadRegionsLoop unmarshal kv fuel st

/-- `loadRegions(kv, regions)`: the loop from the cursor `0` and the largest
page. -/
def loadRegions (unmarshal : String → Except ε Region) (kv : KVBase σ ε) (fuel : Nat) (s : σ)
    (regions : RegionsInfo) : Option (Except ε Unit × LoadState σ) :=
  loadRegionsLoop unmarshal kv fuel ⟨s, regions, 0, maxKVRangeLimit, []⟩

/-! ## What a store holds -/

/-- The entries of `content` whose keys lie in `[key, endKey)`. -/
def rangeOf (content : List (String × String)) (key endKey : String) : List (String × String) :=
  content.filter fun p => key ≤ p.1 ∧ p.1 < endKey

/-- A store whose content in state `s` is `content s`, sorted by key:
`LoadRange` with a positive limit returns the values of the first `limit` keys
of `[key, endKey)` or fails, and a `Delete` that succeeds removes its key. -/
structure KVBase.Lawful (kv : KVBase σ ε) (content : σ → List (String × String)) : Prop where
  sorted : ∀ s, (content s).Pairwise fun a b => a.1 < b.1
  loadRange : ∀ {s key endKey limit res}, 0 < limit → kv.loadRange s key endKey limit = .ok res →
    res = ((rangeOf (content s) key endKey).take limit).map Prod.snd
  delete : ∀ {s key s'}, kv.delete s key = .ok s' →
    content s' = (content s).filter fun p => p.1 ≠ key

/-- What `LoadRange` reads from the cursor `nextID`: the entries from its
path to the end of the region range. -/
def ahead (content : List (String × String)) (nextID : UInt64) : List (String × String) :=
  rangeOf content (regionPath nextID) (regionPath maxUint64)

/-- The regions the values of `entries` decode to. -/
def decoded (unmarshal : String → Except ε Region) (entries : List (String × String)) :
    List Region :=
  entries.filterMap fun p => (unmarshal p.2).toOption

/-- The regions stored in the region range, in key order. -/
def storedRegions (unmarshal : String → Except ε Region) (content : List (String × String)) :
    List Region :=
  decoded unmarshal (ahead content 0)

/-- The region range holds only regions: each key is the path of the region
its value decodes to. -/
def RegionsStored (unmarshal : String → Except ε Region) (content : List (String × String)) :
    Prop :=
  ∀ p ∈ ahead content 0, ∃ region, unmarshal p.2 = .ok region ∧ p.1 = regionPath region.id

/-- What `loadRegions` guarantees of its result: the regions passed to
`SetRegion` are a front of the stored ones, all of them on success, and an
error comes from the last halving of the limit or from a `Delete`. -/
structure Loaded (kv : KVBase σ ε) (stored : List Region) (out : Except ε Unit × LoadState σ) :
    Prop where
  passed_prefix : out.2.passed <+: stored
  passed_of_ok : out.1 = .ok () → out.2.passed = stored
  error : ∀ e, out.1 = .error e →
    out.2.rangeLimit < minKVRangeLimit ∨ ∃ s key, kv.delete s key = .error e

/-! ## Reading ahead of the cursor -/

variable {unmarshal : String → Except ε Region} {kv : KVBase σ ε}
  {content : σ → List (String × String)} {c : List (String × String)}

theorem mem_ahead {id : UInt64} {p : String × String} :
    p ∈ ahead c id ↔ p ∈ c ∧ regionPath id ≤ p.1 ∧ p.1 < regionPath maxUint64 := by
  simp [ahead, rangeOf]

theorem mem_ahead_zero {id : UInt64} {p : String × String} (h : p ∈ ahead c id) : p ∈ ahead c 0 := by
  obtain ⟨hp, hlo, hhi⟩ := mem_ahead.mp h
  exact mem_ahead.mpr ⟨hp, le_trans (regionPath_zero_le id) hlo, hhi⟩

/-- A later cursor reads a part of what an earlier one reads. -/
theorem ahead_ahead {a b : UInt64} (hab : a ≤ b) : ahead (ahead c a) b = ahead c b := by
  have hpath : regionPath a ≤ regionPath b := regionPath_le_regionPath_iff.mpr hab
  simp only [ahead, rangeOf, List.filter_filter, ← Bool.decide_and]
  apply List.filter_congr
  intro p _
  exact decide_eq_decide.mpr ⟨fun h => h.1, fun h => ⟨h, le_trans hpath h.1, h.2⟩⟩

/-- Deleting a key behind the cursor leaves what lies ahead. -/
theorem ahead_filter_ne {b : UInt64} {key : String} (hkey : key < regionPath b) :
    ahead (c.filter fun p => p.1 ≠ key) b = ahead c b := by
  simp only [ahead, rangeOf, List.filter_filter, ← Bool.decide_and]
  apply List.filter_congr
  intro p _
  exact decide_eq_decide.mpr ⟨fun h => h.1, fun h => ⟨h, ne_of_gt (lt_of_lt_of_le hkey h.1)⟩⟩

theorem sorted_ahead (hsorted : c.Pairwise fun a b => a.1 < b.1) (id : UInt64) :
    (ahead c id).Pairwise fun a b => a.1 < b.1 :=
  hsorted.filter _

/-- When every key of the region range is a region's path, the cursor just
past the first region ahead reads the rest: no key lies between two
consecutive paths. -/
theorem ahead_succ (hsorted : c.Pairwise fun a b => a.1 < b.1) (hs : RegionsStored unmarshal c)
    {nextID id : UInt64} {p : String × String} {rest : List (String × String)}
    (hahead : ahead c nextID = p :: rest) (hp : p.1 = regionPath id) : ahead c (id + 1) = rest := by
  have hpmem : p ∈ ahead c nextID := hahead ▸ List.mem_cons_self
  obtain ⟨-, hlo, hhi⟩ := mem_ahead.mp hpmem
  have hid : id < maxUint64 := regionPath_lt_regionPath_iff.mp (hp ▸ hhi)
  have hsucc : id.toNat + 1 = (id + 1).toNat := (toNat_add_one hid).symm
  have hpsucc : p.1 < regionPath (id + 1) := by
    rw [hp, regionPath_lt_regionPath_iff, UInt64.lt_iff_toNat_lt]
    omega
  -- the rest lies strictly after `p`
  have hrest : ∀ q ∈ rest, p.1 < q.1 := by
    have hpair := sorted_ahead hsorted nextID
    rw [hahead] at hpair
    exact (List.pairwise_cons.mp hpair).1
  have hstep : ahead c (id + 1) = (ahead c nextID).filter fun q => q ≠ p := by
    simp only [ahead, rangeOf, List.filter_filter, ← Bool.decide_and]
    apply List.filter_congr
    intro q hq
    refine decide_eq_decide.mpr ⟨fun hnext => ?_, fun ⟨hne, hqlo, hqhi⟩ => ?_⟩
    · -- past the successor's path: ahead of the cursor, and after `p`
      have hpq : p.1 < q.1 := lt_of_lt_of_le hpsucc hnext.1
      exact ⟨fun h => absurd hpq (h ▸ lt_irrefl _), le_trans hlo (le_of_lt hpq), hnext.2⟩
    · -- ahead of the cursor and not `p`: a later region, so at least the successor
      have hqmem : q ∈ ahead c nextID := mem_ahead.mpr ⟨hq, hqlo, hqhi⟩
      obtain ⟨region, -, hqpath⟩ := hs q (mem_ahead_zero hqmem)
      rw [hahead, List.mem_cons] at hqmem
      have hpq : p.1 < q.1 := hrest q (hqmem.resolve_left hne)
      rw [hp, hqpath, regionPath_lt_regionPath_iff, UInt64.lt_iff_toNat_lt] at hpq
      refine ⟨?_, hqhi⟩
      rw [hqpath, regionPath_le_regionPath_iff, UInt64.le_iff_toNat_le]
      omega
  have hnot : p ∉ rest := fun h => lt_irrefl _ (hrest p h)
  rw [hstep, hahead, List.filter_cons_of_neg (by simp)]
  exact List.filter_eq_self.mpr fun q hq => decide_eq_true fun h => hnot (h ▸ hq)

/-- The stored regions come in ascending id order. -/
theorem storedRegions_sorted (hsorted : c.Pairwise fun a b => a.1 < b.1)
    (hs : RegionsStored unmarshal c) :
    (storedRegions unmarshal c).Pairwise fun a b => a.id < b.id := by
  have hpair : (ahead c 0).Pairwise fun p q => p ∈ ahead c 0 ∧ q ∈ ahead c 0 ∧ p.1 < q.1 :=
    (sorted_ahead hsorted 0).imp_of_mem fun hp hq hlt => ⟨hp, hq, hlt⟩
  refine hpair.filterMap _ fun p q hpq a ha b hb => ?_
  obtain ⟨hp, hq, hlt⟩ := hpq
  obtain ⟨ra, hra, hpa⟩ := hs p hp
  obtain ⟨rb, hrb, hqb⟩ := hs q hq
  rw [hra] at ha
  rw [hrb] at hb
  obtain rfl : ra = a := Option.some.inj ha
  obtain rfl : rb = b := Option.some.inj hb
  rwa [hpa, hqb, regionPath_lt_regionPath_iff] at hlt

/-! ## The deletes -/

/-- The deletes of one region's overlaps, all of regions behind the cursor
`b`: they leave what lies ahead of it, and an error is one a `Delete`
returned. -/
theorem deleteOverlaps_spec (hkv : kv.Lawful content) {b : UInt64} (items : List Region) (s : σ)
    (hitems : ∀ x ∈ items, x.id < b) :
    ((deleteOverlaps kv s items).1 = .ok () →
        ahead (content (deleteOverlaps kv s items).2) b = ahead (content s) b) ∧
      ∀ e, (deleteOverlaps kv s items).1 = .error e → ∃ s' key, kv.delete s' key = .error e := by
  induction items generalizing s with
  | nil => exact ⟨fun _ => rfl, (fun _ h => nomatch h)⟩
  | cons item items ih =>
      have hitem : regionPath item.id < regionPath b :=
        regionPath_lt_regionPath_iff.mpr (hitems item List.mem_cons_self)
      cases hdel : deleteRegion kv s item with
      | error e =>
          simp only [deleteOverlaps, hdel]
          refine ⟨(fun h => nomatch h), fun e' h => ?_⟩
          cases h
          exact ⟨s, _, hdel⟩
      | ok s₁ =>
          simp only [deleteOverlaps, hdel]
          obtain ⟨hok, herr⟩ := ih s₁ fun x hx => hitems x (List.mem_cons_of_mem _ hx)
          refine ⟨fun h => ?_, herr⟩
          rw [hok h, hkv.delete hdel, ahead_filter_ne hitem]

/-! ## The loop's invariant -/

/-- The invariant of the loop between two regions, against the content `c₀`
the load started from: the store ahead of the cursor is as it was, the cache
keeps its tree and holds only regions below the cursor, and the regions
passed followed by those ahead are the stored ones. -/
structure Cursor (unmarshal : String → Except ε Region) (content : σ → List (String × String))
    (c₀ : List (String × String)) (st : LoadState σ) : Prop where
  ahead_eq : ahead (content st.kv) st.nextID = ahead c₀ st.nextID
  cache : TreeCached st.regions
  cached_lt : ∀ id ri, st.regions.getRegion id = some ri → id < st.nextID
  passed : st.passed ++ decoded unmarshal (ahead c₀ st.nextID) = storedRegions unmarshal c₀

variable {c₀ : List (String × String)} {st : LoadState σ}

theorem Cursor.passed_prefix (h : Cursor unmarshal content c₀ st) :
    st.passed <+: storedRegions unmarshal c₀ :=
  ⟨_, h.passed⟩

/-- The invariant does not read the limit. -/
theorem Cursor.withRangeLimit (h : Cursor unmarshal content c₀ st) (n : Nat) :
    Cursor unmarshal content c₀ { st with rangeLimit := n } :=
  ⟨h.ahead_eq, h.cache, h.cached_lt, h.passed⟩

/-- At the start the whole region range lies ahead and the cache is empty. -/
theorem cursor_start (s : σ) :
    Cursor unmarshal content (content s) ⟨s, newRegionsInfo, 0, maxKVRangeLimit, []⟩ where
  ahead_eq := rfl
  cache := consistent_newRegionsInfo.treeCached
  cached_lt := fun _ _ h => by cases h
  passed := List.nil_append _

section Steps

variable (hkv : kv.Lawful content) (hsorted : c₀.Pairwise fun a b => a.1 < b.1)
  (hs : RegionsStored unmarshal c₀)
include hkv hsorted hs

/-- One region of a page, the entry `p` first ahead of the cursor: it decodes
and `SetRegion` takes it; then either every delete succeeds and the page goes
on from a state past `p` that keeps the invariant, or a `Delete` fails. -/
theorem Cursor.loadPage_cons (h : Cursor unmarshal content c₀ st) {p : String × String}
    {rest : List (String × String)} (hahead : ahead c₀ st.nextID = p :: rest) (res : List String) :
    (∃ st', Cursor unmarshal content c₀ st' ∧ st'.rangeLimit = st.rangeLimit ∧
        ahead c₀ st'.nextID = rest ∧
        loadPage unmarshal kv (p.2 :: res) st = loadPage unmarshal kv res st') ∨
      ∃ e st', loadPage unmarshal kv (p.2 :: res) st = some (.error e, st') ∧
        (∃ s key, kv.delete s key = .error e) ∧ st'.passed <+: storedRegions unmarshal c₀ := by
  have hpmem : p ∈ ahead c₀ st.nextID := hahead ▸ List.mem_cons_self
  obtain ⟨-, hlo, hhi⟩ := mem_ahead.mp hpmem
  obtain ⟨region, hdec, hpath⟩ := hs p (mem_ahead_zero hpmem)
  rw [hpath] at hlo hhi
  have hnext : st.nextID.toNat ≤ region.id.toNat :=
    UInt64.le_iff_toNat_le.mp (regionPath_le_regionPath_iff.mp hlo)
  have hsucc : (region.id + 1).toNat = region.id.toNat + 1 :=
    toNat_add_one (regionPath_lt_regionPath_iff.mp hhi)
  have hmono : st.nextID ≤ region.id + 1 := by
    rw [UInt64.le_iff_toNat_le, hsucc]
    omega
  -- the region is not cached yet: every cached id is below the cursor
  have hnone : st.regions.getRegion (newRegionInfo region none).getID = none := by
    cases hget : st.regions.getRegion region.id with
    | none => exact hget
    | some ri =>
        have hlt := UInt64.lt_iff_toNat_lt.mp (h.cached_lt _ _ hget)
        omega
  obtain ⟨regions, overlaps, hset, hcache, hview, hoverlaps⟩ :=
    h.cache.setRegion hnone
  -- so are the overlaps, whose paths lie behind the new cursor
  have hbehind : ∀ x ∈ overlaps, x.id < region.id + 1 := by
    intro x hx
    obtain ⟨ri, hri⟩ := hoverlaps x hx
    exact UInt64.lt_of_lt_of_le (h.cached_lt _ _ hri) hmono
  have hpassed : st.passed ++ [region] ++ decoded unmarshal rest = storedRegions unmarshal c₀ := by
    have hp : (unmarshal p.2).toOption = some region := by rw [hdec]; rfl
    rw [← h.passed, hahead, decoded, decoded, List.filterMap_cons_some (f := fun q : String × String => (unmarshal q.2).toOption) hp,
      List.append_assoc, List.singleton_append]
  obtain ⟨hok, herr⟩ := deleteOverlaps_spec hkv overlaps st.kv hbehind
  match hdel : deleteOverlaps kv st.kv overlaps with
  | (.error e, s₁) =>
      refine .inr ⟨e, { st with
          regions := regions
          nextID := region.id + 1
          passed := st.passed ++ [region]
          kv := s₁ }, ?_, herr e (by rw [hdel]), ⟨_, hpassed⟩⟩
      simp [loadPage, hdec, hset, hdel]
  | (.ok (), s₁) =>
      have hkept : ahead (content s₁) (region.id + 1) = ahead (content st.kv) (region.id + 1) := by
        rw [hdel] at hok
        exact hok rfl
      have hahead₁ : ahead (content s₁) (region.id + 1) = ahead c₀ (region.id + 1) := by
        rw [hkept, ← ahead_ahead hmono, h.ahead_eq, ahead_ahead hmono]
      refine .inl ⟨{ st with
          regions := regions
          nextID := region.id + 1
          passed := st.passed ++ [region]
          kv := s₁ }, ⟨hahead₁, hcache, fun id ri hri => ?_, ?_⟩, rfl,
        ahead_succ hsorted hs hahead hpath, ?_⟩
      · -- a cached region is the new one or was cached below the old cursor
        change regions.getRegion id = some ri at hri
        rcases hview id ri hri with hid | hold
        · rw [hid, UInt64.lt_iff_toNat_lt, hsucc]
          exact Nat.lt_succ_self _
        · exact UInt64.lt_of_lt_of_le (h.cached_lt _ _ hold) hmono
      · show st.passed ++ [region] ++ decoded unmarshal (ahead c₀ (region.id + 1)) = _
        rw [ahead_succ hsorted hs hahead hpath]
        exact hpassed
      · simp [loadPage, hdec, hset, hdel]

/-- One page, a front of what lies ahead of the cursor: it keeps the
invariant and moves the cursor past it, or a `Delete` fails. -/
theorem Cursor.loadPage_spec : ∀ (page : List (String × String)) {st : LoadState σ},
    Cursor unmarshal content c₀ st → page <+: ahead c₀ st.nextID →
    ∃ out, loadPage unmarshal kv (page.map Prod.snd) st = some out ∧
      (out.1 = .ok () → Cursor unmarshal content c₀ out.2 ∧ out.2.rangeLimit = st.rangeLimit ∧
          ahead c₀ out.2.nextID = (ahead c₀ st.nextID).drop page.length) ∧
      ∀ e, out.1 = .error e →
        (∃ s key, kv.delete s key = .error e) ∧ out.2.passed <+: storedRegions unmarshal c₀
  | [], st, h, _ => ⟨(.ok (), st), rfl, fun _ => ⟨h, rfl, rfl⟩, (fun _ he => nomatch he)⟩
  | p :: page, st, h, ⟨t, ht⟩ => by
      rcases h.loadPage_cons hkv hsorted hs ht.symm (page.map Prod.snd) with
        ⟨st', h', hlim, hahead', heq⟩ | ⟨e, st', hrun, hdel, hpre⟩
      · -- the first region went through: the rest of the page from the new cursor
        obtain ⟨out, hrun, hok, herr⟩ := Cursor.loadPage_spec page h' ⟨t, hahead'.symm⟩
        refine ⟨out, by rw [List.map_cons, heq, hrun], fun hout => ?_, herr⟩
        obtain ⟨hcur, hlim', hdrop⟩ := hok hout
        refine ⟨hcur, hlim'.trans hlim, ?_⟩
        rw [hdrop, hahead', ← ht]
        simp
      · refine ⟨(.error e, st'), hrun, (fun h => nomatch h), fun e' he => ?_⟩
        cases he
        exact ⟨hdel, hpre⟩

/-- The run lemma: from a state with the invariant and a limit of at least
`minKVRangeLimit` and below `minKVRangeLimit * 2 ^ halvings`, fuel above the
entries ahead plus the halvings gives a `Loaded` result. A full page moves the
cursor past at least one entry, and a failed `LoadRange` spends a halving. -/
theorem Cursor.loadRegionsLoop_spec (fuel halvings : Nat) {st : LoadState σ}
    (h : Cursor unmarshal content c₀ st) (hmin : minKVRangeLimit ≤ st.rangeLimit)
    (hmax : st.rangeLimit < minKVRangeLimit * 2 ^ halvings)
    (hfuel : (ahead c₀ st.nextID).length + halvings < fuel) :
    ∃ out, loadRegionsLoop unmarshal kv fuel st = some out ∧ Loaded kv (storedRegions unmarshal c₀) out := by
  induction fuel generalizing halvings st with
  | zero => exact absurd hfuel (Nat.not_lt_zero _)
  | succ fuel ih =>
      cases hload : kv.loadRange st.kv (regionPath st.nextID) (regionPath maxUint64) st.rangeLimit with
      | error e =>
          by_cases hhalf : minKVRangeLimit ≤ st.rangeLimit / 2
          · -- another try, with a halving fewer left
            obtain ⟨k, rfl⟩ : ∃ k, halvings = k + 1 := Nat.exists_eq_succ_of_ne_zero (by
              rintro rfl
              rw [pow_zero, mul_one] at hmax
              omega)
            have hmax' : st.rangeLimit / 2 < minKVRangeLimit * 2 ^ k := by
              rw [Nat.div_lt_iff_lt_mul (by norm_num)]
              rwa [pow_succ, ← mul_assoc] at hmax
            obtain ⟨out, hrun, hout⟩ := ih k (h.withRangeLimit (st.rangeLimit / 2)) hhalf hmax'
              (by show (ahead c₀ st.nextID).length + k < fuel; omega)
            exact ⟨out, by simp [loadRegionsLoop, hload, hhalf, hrun], hout⟩
          · refine ⟨(.error e, { st with rangeLimit := st.rangeLimit / 2 }), ?_,
              ⟨h.passed_prefix, (fun h => nomatch h), fun _ _ => .inl (Nat.lt_of_not_le hhalf)⟩⟩
            simp [loadRegionsLoop, hload, hhalf]
      | ok res =>
          have hres : res = ((ahead c₀ st.nextID).take st.rangeLimit).map Prod.snd := by
            rw [hkv.loadRange (lt_of_lt_of_le (by decide) hmin) hload, ← h.ahead_eq]
            rfl
          have hlen : res.length = min st.rangeLimit (ahead c₀ st.nextID).length := by
            rw [hres, List.length_map, List.length_take]
          obtain ⟨out, hpage, hok, herr⟩ := h.loadPage_spec hkv hsorted hs _ (List.take_prefix _ _)
          rw [← hres] at hpage
          match out, hpage, hok, herr with
          | (.error e, st₁), hpage, _, herr =>
              refine ⟨(.error e, st₁), by simp [loadRegionsLoop, hload, hpage],
                ⟨(herr e rfl).2, (fun h => nomatch h), fun e' he => ?_⟩⟩
              cases he
              exact .inr (herr e rfl).1
          | (.ok (), st₁), hpage, hok, _ =>
              obtain ⟨h₁, hlim, hdrop⟩ := hok rfl
              dsimp only at h₁ hlim hdrop
              rw [List.length_take] at hdrop
              by_cases hshort : res.length < st₁.rangeLimit
              · -- a short page: nothing lies ahead any more
                have hnil : ahead c₀ st₁.nextID = [] := by
                  rw [hdrop]
                  exact List.drop_eq_nil_of_le (by omega)
                have hall : st₁.passed = storedRegions unmarshal c₀ := by
                  simpa [hnil, decoded] using h₁.passed
                exact ⟨(.ok (), st₁), by simp [loadRegionsLoop, hload, hpage, hshort],
                  ⟨h₁.passed_prefix, fun _ => hall, (fun _ he => nomatch he)⟩⟩
              · -- a full page: the cursor moved past `rangeLimit` entries
                have hfuel₁ : (ahead c₀ st₁.nextID).length + halvings < fuel := by
                  rw [hdrop, List.length_drop]
                  have hpos : 0 < st.rangeLimit := lt_of_lt_of_le (by decide) hmin
                  omega
                obtain ⟨out, hrun, hout⟩ := ih halvings h₁ (hlim ▸ hmin) (hlim ▸ hmax) hfuel₁
                exact ⟨out, by simp [loadRegionsLoop, hload, hpage, hshort, hrun], hout⟩

end Steps

/-! ## Loading every stored region -/

/-- With a lawful store whose region range holds only regions, `loadRegions`
from an empty cache gives a result once the fuel exceeds the size of the
store by the seven halvings from `maxKVRangeLimit` below `minKVRangeLimit`.
The stored regions come in ascending id order; on success each of them has
been passed to `SetRegion` once, in that order, and an error comes after the
limit fell below `minKVRangeLimit` or from a `Delete`. -/
theorem loadRegions_passes_stored_regions (hkv : kv.Lawful content) {s : σ}
    (hs : RegionsStored unmarshal (content s)) {fuel : Nat} (hfuel : (content s).length + 8 ≤ fuel) :
    (storedRegions unmarshal (content s)).Pairwise (fun a b => a.id < b.id) ∧
      ∃ out, loadRegions unmarshal kv fuel s newRegionsInfo = some out ∧
        Loaded kv (storedRegions unmarshal (content s)) out := by
  have hlen : (ahead (content s) 0).length ≤ (content s).length := List.length_filter_le _ _
  refine ⟨storedRegions_sorted (hkv.sorted s) hs, ?_⟩
  exact Cursor.loadRegionsLoop_spec hkv (hkv.sorted s) hs fuel 7 (cursor_start s)
    (show minKVRangeLimit ≤ maxKVRangeLimit by decide)
    (show maxKVRangeLimit < minKVRangeLimit * 2 ^ 7 by decide)
    (by show (ahead (content s) 0).length + 7 < fuel; omega)

/-- The content of `memoryKV`: the items of its B-tree, in key order. -/
def MemoryKV : Type := { items : List (String × String) // items.Pairwise fun a b => a.1 < b.1 }

/-- `memoryKV`'s `LoadRange` and `Delete`. `AscendRange` stops once the page
holds `limit` values, checked after each value, so a zero limit still reads
one. Neither call fails. -/
def memoryKV : KVBase MemoryKV ε where
  loadRange s key endKey limit := .ok (((rangeOf s.1 key endKey).take (max limit 1)).map Prod.snd)
  delete s key := .ok ⟨s.1.filter fun p => p.1 ≠ key, s.2.filter _⟩

theorem memoryKV_lawful : (memoryKV (ε := ε)).Lawful Subtype.val where
  sorted s := s.2
  loadRange hpos h := by
    cases h
    rw [Nat.max_eq_left hpos]
  delete h := by
    cases h
    rfl

/-- One region over the whole key space. -/
def wholeRegion : Region := ⟨1, [], [], ⟨1, 1⟩, []⟩

/-- A store holding `wholeRegion` under its path, its value the text `"1"`. -/
def oneRegionStore : MemoryKV := ⟨[(regionPath 1, "1")], List.pairwise_singleton _ _⟩

/-- A decoder that knows the one value of `oneRegionStore`. -/
def unmarshalOne (value : String) : Except Unit Region :=
  if value = "1" then .ok wholeRegion else .error ()

theorem ahead_oneRegionStore : ahead oneRegionStore.1 0 = [(regionPath 1, "1")] := by
  have hin : regionPath 0 ≤ regionPath 1 ∧ regionPath 1 < regionPath maxUint64 :=
    ⟨regionPath_zero_le 1, regionPath_lt_regionPath_iff.mpr (by decide)⟩
  show List.filter (fun p => decide (regionPath 0 ≤ p.1 ∧ p.1 < regionPath maxUint64))
    [(regionPath 1, "1")] = _
  rw [List.filter_cons_of_pos (p := fun q : String × String =>
    decide (regionPath 0 ≤ q.1 ∧ q.1 < regionPath maxUint64)) (decide_eq_true hin), List.filter_nil]

theorem oneRegionStore_stored : RegionsStored unmarshalOne oneRegionStore.1 := by
  intro p hp
  rw [ahead_oneRegionStore, List.mem_singleton] at hp
  subst hp
  exact ⟨wholeRegion, if_pos rfl, rfl⟩

theorem loadRegions_passes_stored_regions_oneRegionStore :
    (memoryKV (ε := Unit)).Lawful Subtype.val ∧ RegionsStored unmarshalOne oneRegionStore.1 ∧
      oneRegionStore.1.length + 8 ≤ 9 ∧
      ∃ out, loadRegions unmarshalOne memoryKV 9 oneRegionStore newRegionsInfo = some out ∧
        Loaded memoryKV (storedRegions unmarshalOne oneRegionStore.1) out :=
  ⟨memoryKV_lawful, oneRegionStore_stored, le_refl 9,
    (loadRegions_passes_stored_regions memoryKV_lawful oneRegionStore_stored (le_refl 9)).2⟩

/-! ## A store that returns short pages -/

/-- A weaker contract for `LoadRange`: at most `limit` values, of keys of the
range, in key order. -/
def KVBase.LoadsAtMost (kv : KVBase σ ε) (content : σ → List (String × String)) : Prop :=
  ∀ {s key endKey limit res}, kv.loadRange s key endKey limit = .ok res →
    ∃ page : List (String × String), page.Sublist (rangeOf (content s) key endKey) ∧ page.length ≤ limit ∧
      res = page.map Prod.snd

/-- A store whose `LoadRange` returns nothing, as that contract allows. -/
def emptyPageKV : KVBase MemoryKV Unit where
  loadRange _ _ _ _ := .ok []
  delete := memoryKV.delete

/-- Under the weaker contract the loop stops at the first short page: a store
holding one region that returns empty pages ends `loadRegions` with success,
whatever the fuel, without a region passed to `SetRegion`. -/
theorem loadRegions_stops_at_short_page :
    emptyPageKV.LoadsAtMost Subtype.val ∧ RegionsStored unmarshalOne oneRegionStore.1 ∧
      (∀ fuel, loadRegions unmarshalOne emptyPageKV (fuel + 1) oneRegionStore newRegionsInfo =
        some (.ok (), ⟨oneRegionStore, newRegionsInfo, 0, maxKVRangeLimit, []⟩)) ∧
      storedRegions unmarshalOne oneRegionStore.1 = [wholeRegion] := by
  refine ⟨fun h => ⟨[], List.nil_sublist _, Nat.zero_le _, ?_⟩, oneRegionStore_stored,
    fun _ => rfl, ?_⟩
  · cases h
    rfl
  · rw [storedRegions, ahead_oneRegionStore]
    rfl

end PlacementDriver
