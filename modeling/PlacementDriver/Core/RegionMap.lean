import PlacementDriver.Core.RegionInfo
import PlacementDriver.Verified.DenseIndex

/-!
# `regionMap`: regions by id, with a dense slice of ids

`regionMap` (in `server/core/region.go`) is a Go map from region id to a
`regionEntry`, which holds the region and its index in the slice `ids`, so that
`RandomRegion` can pick a region uniformly; it also keeps running totals of
the regions' approximate sizes and key counts. `Put` of a new id appends it to
`ids`; `Delete` moves the last id into the freed slot.

We model the Go map as an association list (`AList`): `len(m)` is the length
of its keys, a lookup is `AList.lookup`, an assignment `AList.insert` and
`delete` is `AList.erase`. An entry is a pointer in Go, and `Delete` writes
`last.pos` through the pointer it read from the map: we write the updated entry
back under the same key. The totals are `int64`; they are sums of region sizes
and we model them as `Int` without wrap-around.

`Valid` is the invariant of the structure: entries are stored under their
region's id, positions and `ids` index each other, and the totals are the sums
over the entries. Under it, `Delete` never reads outside `ids` nor a missing
entry, which in Go would be an index-out-of-range panic or a nil dereference
(`delete_lookup_last`).

## Main results

* `get_put`, `get_delete`: `Put` and `Delete` act on `Get` as a finite map.
* `valid_put`, `valid_delete`: they keep `Valid`.
* `randomRegion_eq_some_iff`, `randomRegion_isSome`: `RandomRegion` picks a
  region at every index below `Len()`, each stored region at exactly one.
-/

namespace PlacementDriver

open Metapb Verified DenseIndex

/-- `regionEntry`: a region and its index in `ids`. -/
structure RegionEntry where
  regionInfo : RegionInfo
  pos : Nat
deriving DecidableEq, Repr

/-- `regionMap`. -/
structure RegionMap where
  m : AList (fun _ : UInt64 => RegionEntry)
  ids : List UInt64
  totalSize : Int
  totalKeys : Int
deriving DecidableEq

namespace RegionMap

/-- `newRegionMap`. -/
def newRegionMap : RegionMap := ⟨∅, [], 0, 0⟩

/-- `Len`: the number of keys of the Go map. -/
def len (rm : RegionMap) : Nat := rm.m.keys.length

/-- `Get`. -/
def get (rm : RegionMap) (id : UInt64) : Option RegionInfo :=
  (rm.m.lookup id).map RegionEntry.regionInfo

/-- `Put`: replace the region of a known id in place, or append a new id. -/
def put (rm : RegionMap) (region : RegionInfo) : RegionMap :=
  match rm.m.lookup region.getID with
  | some old =>
      { rm with
        totalSize := rm.totalSize + (region.approximateSize - old.regionInfo.approximateSize)
        totalKeys := rm.totalKeys + (region.approximateKeys - old.regionInfo.approximateKeys)
        m := rm.m.insert region.getID { old with regionInfo := region } }
  | none =>
      { m := rm.m.insert region.getID ⟨region, rm.ids.length⟩
        ids := rm.ids ++ [region.getID]
        totalSize := rm.totalSize + region.approximateSize
        totalKeys := rm.totalKeys + region.approximateKeys }

/-- `Delete`: move the last id into the slot of the deleted one. -/
def delete (rm : RegionMap) (id : UInt64) : RegionMap :=
  match rm.m.lookup id with
  | none => rm
  | some old =>
      let len := rm.len
      -- `last := rm.m[rm.ids[len-1]]`
      let lastId := rm.ids.getD (len - 1) 0
      match rm.m.lookup lastId with
      | none => rm
      | some last =>
          -- `last.pos = old.pos` writes through the entry's pointer
          let m := rm.m.insert lastId { last with pos := old.pos }
          { m := m.erase id
            ids := (rm.ids.set old.pos last.regionInfo.getID).take (len - 1)
            totalSize := rm.totalSize - old.regionInfo.approximateSize
            totalKeys := rm.totalKeys - old.regionInfo.approximateKeys }

/-- `RandomRegion`, with the value of `rand.Intn(rm.Len())` as an argument. -/
def randomRegion (rm : RegionMap) (n : Nat) : Option RegionInfo :=
  if rm.len = 0 then none else rm.get (rm.ids.getD n 0)

/-- `TotalSize`. -/
def getTotalSize (rm : RegionMap) : Int := if rm.len = 0 then 0 else rm.totalSize

/-! ## The invariant -/

/-- The position recorded in the entry of every key. -/
def positions (m : AList (fun _ : UInt64 => RegionEntry)) (k : UInt64) : Option Nat :=
  (m.lookup k).map RegionEntry.pos

theorem positions_insert (m : AList (fun _ : UInt64 => RegionEntry)) (k : UInt64)
    (e : RegionEntry) : positions (m.insert k e) = Function.update (positions m) k (some e.pos) := by
  funext k'
  by_cases hk : k' = k
  · subst hk
    simp [positions, AList.lookup_insert]
  · simp [positions, AList.lookup_insert_ne hk, Function.update_of_ne hk]

theorem positions_erase (m : AList (fun _ : UInt64 => RegionEntry)) (k : UInt64) :
    positions (m.erase k) = Function.update (positions m) k none := by
  funext k'
  by_cases hk : k' = k
  · subst hk
    simp [positions, AList.lookup_erase]
  · simp [positions, AList.lookup_erase_ne hk, Function.update_of_ne hk]

/-- What `Put` and `Delete` keep. -/
structure Valid (rm : RegionMap) : Prop where
  keyed : ∀ k e, rm.m.lookup k = some e → e.regionInfo.getID = k
  indexed : Indexed (positions rm.m) rm.ids
  totalSize : rm.totalSize = total (fun e => e.regionInfo.approximateSize) rm.m
  totalKeys : rm.totalKeys = total (fun e => e.regionInfo.approximateKeys) rm.m

theorem valid_newRegionMap : newRegionMap.Valid where
  keyed _ _ h := by cases h
  indexed _ _ := by simp [positions, newRegionMap, AList.lookup_empty]
  totalSize := rfl
  totalKeys := rfl

@[simp] theorem get_newRegionMap (id : UInt64) : newRegionMap.get id = none := rfl

variable {rm : RegionMap}

/-- An entry written under its region's id keeps entries keyed. -/
theorem keyed_insert (h : rm.Valid) (e : RegionEntry) :
    ∀ k e', (rm.m.insert e.regionInfo.getID e).lookup k = some e' → e'.regionInfo.getID = k := by
  intro k e' he
  by_cases hk : k = e.regionInfo.getID
  · subst hk
    rw [AList.lookup_insert] at he
    rw [← Option.some.inj he]
  · rw [AList.lookup_insert_ne hk] at he
    exact h.keyed k e' he

theorem Valid.mem_ids (h : rm.Valid) {k : UInt64} : k ∈ rm.ids ↔ k ∈ rm.m := by
  rw [h.indexed.mem_iff, positions, Option.isSome_map, AList.lookup_isSome]

/-- `ids` lists the keys of the Go map. -/
theorem Valid.ids_perm (h : rm.Valid) : rm.ids.Perm rm.m.keys := by
  rw [List.perm_ext_iff_of_nodup h.indexed.nodup rm.m.keys_nodup]
  intro k
  rw [h.mem_ids, AList.mem_keys]

/-- The Go map has as many keys as `ids`. -/
theorem Valid.len_eq (h : rm.Valid) : rm.len = rm.ids.length :=
  h.ids_perm.length_eq.symm

/-- The entry of the id at index `i` records `i`. -/
theorem Valid.pos_ids (h : rm.Valid) (i : Nat) (hi : i < rm.ids.length) :
    (rm.m.lookup rm.ids[i]).map RegionEntry.pos = some i :=
  (h.indexed rm.ids[i] i).mpr (List.getElem?_eq_getElem hi)

theorem Valid.get_eq_some (h : rm.Valid) {id : UInt64} {r : RegionInfo} (hg : rm.get id = some r) :
    r.getID = id := by
  obtain ⟨e, he, rfl⟩ := Option.map_eq_some_iff.mp hg
  exact h.keyed id e he

/-! ## `Put` -/

theorem get_put (rm : RegionMap) (region : RegionInfo) (id : UInt64) :
    (rm.put region).get id = if id = region.getID then some region else rm.get id := by
  unfold put get
  split
  · split_ifs with hid
    · rw [hid, AList.lookup_insert]
      rfl
    · rw [AList.lookup_insert_ne hid]
  · split_ifs with hid
    · rw [hid, AList.lookup_insert]
      rfl
    · rw [AList.lookup_insert_ne hid]

theorem valid_put (h : rm.Valid) (region : RegionInfo) : (rm.put region).Valid := by
  unfold put
  split
  · -- a known id: the entry keeps its position, the totals change by the difference
    rename_i old hold
    have hpos : positions rm.m region.getID = some old.pos := by simp [positions, hold]
    refine ⟨keyed_insert h { old with regionInfo := region }, ?_, ?_, ?_⟩
    · rw [positions_insert, ← hpos, Function.update_eq_self]
      exact h.indexed
    · simp only [total_insert, hold, Option.map_some, Option.getD_some, h.totalSize]
      abel
    · simp only [total_insert, hold, Option.map_some, Option.getD_some, h.totalKeys]
      abel
  · -- a new id: appended to `ids` at the old length
    rename_i hnone
    refine ⟨keyed_insert h ⟨region, rm.ids.length⟩, ?_, ?_, ?_⟩
    · rw [positions_insert]
      exact h.indexed.append (by simp [positions, hnone])
    · simp only [total_insert, hnone, Option.map_none, Option.getD_none, sub_zero, h.totalSize]
    · simp only [total_insert, hnone, Option.map_none, Option.getD_none, sub_zero, h.totalKeys]

/-! ## `Delete` -/

/-- Under `Valid`, the last id `Delete` reads is in range and has an entry,
whose region has that id. -/
theorem delete_lookup_last (h : rm.Valid) {id : UInt64} {old : RegionEntry}
    (hold : rm.m.lookup id = some old) :
    ∃ last, rm.ids[rm.ids.length - 1]? = some (rm.ids.getD (rm.len - 1) 0) ∧
      rm.m.lookup (rm.ids.getD (rm.len - 1) 0) = some last ∧
      last.regionInfo.getID = rm.ids.getD (rm.len - 1) 0 := by
  have hpos : positions rm.m id = some old.pos := by simp [positions, hold]
  have hlt : old.pos < rm.ids.length := h.indexed.lt_length hpos
  have hin : rm.ids[rm.ids.length - 1]? = some (rm.ids.getD (rm.len - 1) 0) := by
    rw [h.len_eq, List.getD_eq_getElem?_getD, List.getElem?_eq_getElem (by omega),
      Option.getD_some]
  have hmem : rm.ids.getD (rm.len - 1) 0 ∈ rm.m := by
    rw [← h.mem_ids]
    exact List.mem_of_getElem? hin
  obtain ⟨last, hlast⟩ := Option.isSome_iff_exists.mp (AList.lookup_isSome.mpr hmem)
  exact ⟨last, hin, hlast, h.keyed _ last hlast⟩

theorem get_delete (h : rm.Valid) (id id' : UInt64) :
    (rm.delete id).get id' = if id' = id then none else rm.get id' := by
  unfold delete
  split
  · rename_i hnone
    split_ifs with hid
    · subst hid
      simp [get, hnone]
    · rfl
  · rename_i old hold
    obtain ⟨last, -, hlast, -⟩ := delete_lookup_last h hold
    simp only [hlast]
    split_ifs with hid
    · subst hid
      simp [get, AList.lookup_erase]
    · simp only [get, AList.lookup_erase_ne hid]
      by_cases hl : id' = rm.ids.getD (rm.len - 1) 0
      · rw [hl, AList.lookup_insert, hlast]
        rfl
      · rw [AList.lookup_insert_ne hl]

theorem valid_delete (h : rm.Valid) (id : UInt64) : (rm.delete id).Valid := by
  unfold delete
  split
  · exact h
  · rename_i old hold
    obtain ⟨last, hin, hlast, hlastId⟩ := delete_lookup_last h hold
    simp only [hlast]
    set lastId := rm.ids.getD (rm.len - 1) 0 with hlastIdDef
    -- after `last.pos = old.pos`, the entry under `id` still holds `old`'s region
    have hold' : ∀ g : RegionInfo → Int,
        (((rm.m.insert lastId { last with pos := old.pos }).lookup id).map
          (fun e => g e.regionInfo)).getD 0 = g old.regionInfo := by
      intro g
      by_cases hil : id = lastId
      · rw [hil, AList.lookup_insert]
        rw [hil, hlast] at hold
        rw [Option.some.inj hold]
        rfl
      · rw [AList.lookup_insert_ne hil, hold]
        rfl
    refine ⟨fun k e he => ?_, ?_, ?_, ?_⟩
    · by_cases hk : k = id
      · rw [hk, AList.lookup_erase] at he
        cases he
      · rw [AList.lookup_erase_ne hk] at he
        by_cases hkl : k = lastId
        · rw [hkl, AList.lookup_insert] at he
          rw [← Option.some.inj he, hkl]
          exact hlastId
        · rw [AList.lookup_insert_ne hkl] at he
          exact h.keyed k e he
    · rw [positions_erase, positions_insert, hlastId, h.len_eq]
      exact h.indexed.swapRemove (by simp [positions, hold]) hin
    · rw [total_erase, total_insert, hold' RegionInfo.approximateSize, hlast, h.totalSize]
      simp only [Option.map_some, Option.getD_some]
      abel
    · rw [total_erase, total_insert, hold' RegionInfo.approximateKeys, hlast, h.totalKeys]
      simp only [Option.map_some, Option.getD_some]
      abel

/-! ## `RandomRegion` -/

/-- At an index in range, `RandomRegion` reads the id stored there. -/
theorem randomRegion_of_lt (h : rm.Valid) {n : Nat} (hn : n < rm.len) :
    rm.randomRegion n = rm.ids[n]?.bind rm.get := by
  have hlen : n < rm.ids.length := h.len_eq ▸ hn
  rw [randomRegion, if_neg (by omega), List.getD_eq_getElem?_getD, List.getElem?_eq_getElem hlen]
  rfl

/-- Every index in range picks a region, and the region picked at `n` is the
one whose entry records position `n`: `RandomRegion` is a bijection between
the indexes below `Len()` and the stored regions. -/
theorem randomRegion_eq_some_iff (h : rm.Valid) {n : Nat} (hn : n < rm.len) {r : RegionInfo} :
    rm.randomRegion n = some r ↔ positions rm.m r.getID = some n ∧ rm.get r.getID = some r := by
  rw [randomRegion_of_lt h hn, h.indexed r.getID n]
  constructor
  · intro hr
    obtain ⟨k, hk, hget⟩ := Option.bind_eq_some_iff.mp hr
    rw [h.get_eq_some hget]
    exact ⟨hk, hget⟩
  · rintro ⟨hid, hr⟩
    rw [hid]
    exact hr

theorem randomRegion_isSome (h : rm.Valid) {n : Nat} (hn : n < rm.len) :
    (rm.randomRegion n).isSome := by
  have hlen : n < rm.ids.length := h.len_eq ▸ hn
  have hmem : rm.ids[n] ∈ rm.m := (h.mem_ids).mp (List.getElem_mem hlen)
  rw [randomRegion_of_lt h hn, List.getElem?_eq_getElem hlen, Option.bind_some, get,
    Option.isSome_map]
  exact AList.lookup_isSome.mpr hmem

end RegionMap

end PlacementDriver
