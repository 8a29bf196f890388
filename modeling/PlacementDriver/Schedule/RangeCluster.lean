import PlacementDriver.Core.RegionsInfoQueries

/-!
# The range cluster of `scatter-range`

`GenRangeCluster(cluster, startKey, endKey)` in `schedule/range_cluster.go`
builds the regions the `scatter-range` scheduler balances. It pages through
`ScanRegions` from `startKey`, `scanLimit` regions at a time, and sets each
region that starts before `endKey` in a new `RegionsInfo`; it stops at the
first region that does not, after the first region with an empty end key, or
at an empty page, and starts each page at the end key of the last region
read. The cluster's `ScanRegions` is `RegionsInfo.ScanRange` on its cache.

Over a consistent cache the regions from a key on are a suffix of the regions
in key order, and those from the end key of a region on are the ones after
it (`KeyRange.filter_hi_le_lo`). So the pages read the regions from
`startKey` on in order, each once (`collectRegions_bind`), and the outer loop
makes at most one pass more than there are such regions (`genRangeLoop_eq`).
The loop is modelled with that many passes as fuel, and never runs out.

Keys compare as `bytes.Compare` does, and the empty key is the least one: an
empty `endKey` does not leave the range open, it leaves it empty.

The `RangeCluster` also embeds the `Cluster` and a `tolerantSizeRatio`,
which `GenRangeCluster` does not set; we keep only its `regions`.

## Main results

* `genRangeLoop_eq`: with more passes than regions from the scan key on, the
  loops set, in key order, the regions from the scan key on that start
  before `endKey`.
* `genRangeCluster_spec`: `GenRangeCluster` over a consistent cache ends, and
  its regions are exactly the cached regions starting at or after `startKey`
  and before `endKey`.
* `range_cluster_empty_end_key_collects_nothing`: with an empty `endKey` the
  range cluster holds no region, even where the cache holds one at or after
  `startKey`.
-/

namespace PlacementDriver.Schedule

open Verified RegionsInfo RegionTree
open scoped List

/-- `scanLimit`. -/
def scanLimit : Nat := 128

/-- The inner loop `for _, r := range collect`: set each region starting
before `endKey` and move `scanKey` to its end key. It returns the regions, the
scan key and whether the outer loop ends, or `none` for a panic: of
`SetRegion`, or of `GetStartKey` on a nil region. -/
def collectRegions (endKey : Key) : List (Option RegionInfo) → RegionsInfo → Key → Option (RegionsInfo × Key × Bool)
  | [], regions, scanKey => some (regions, scanKey, false)
  | none :: _, _, _ => none
  | some r :: collect, regions, scanKey =>
      if r.regionMeta.startKey < endKey then
        match regions.setRegion r with
        | none => none
        | some (regions, _) =>
            if r.regionMeta.endKey.isEmpty then some (regions, scanKey, true)
            else collectRegions endKey collect regions r.regionMeta.endKey
      else some (regions, scanKey, true)

/-- The outer loop `for !loopEnd`, with at most `fuel` passes: a page of
`cluster.ScanRegions(scanKey, scanLimit)`, then the inner loop over it. -/
def genRangeLoop (cluster : RegionsInfo) (endKey : Key) : Nat → RegionsInfo → Key → Option RegionsInfo
  | 0, _, _ => none
  | fuel + 1, regions, scanKey =>
      let collect := cluster.scanRange scanKey scanLimit
      if collect.length = 0 then some regions
      else
        match collectRegions endKey collect regions scanKey with
        | none => none
        | some (regions, scanKey, loopEnd) =>
            if loopEnd then some regions else genRangeLoop cluster endKey fuel regions scanKey

/-- The regions of `GenRangeCluster(cluster, startKey, endKey)`, from
`NewRegionsInfo()`; one pass more than the cache holds regions is never
reached. -/
def genRangeCluster (cluster : RegionsInfo) (startKey endKey : Key) : Option RegionsInfo :=
  genRangeLoop cluster endKey (cluster.tree.length + 1) newRegionsInfo startKey

/-! ## The loops, one region at a time -/

/-- What the two loops do, read one region at a time: set each region that
starts before `endKey`, stopping at the first that does not, and after the
first with an empty end key. -/
def setWhile (endKey : Key) : List RegionInfo → RegionsInfo → Option RegionsInfo
  | [], regions => some regions
  | r :: rest, regions =>
      if r.regionMeta.startKey < endKey then
        match regions.setRegion r with
        | none => none
        | some (regions, _) =>
            if r.regionMeta.endKey.isEmpty then some regions else setWhile endKey rest regions
      else some regions

/-- A page read by the inner loop, then the outer loop going on from the key
it returns, is the page and the regions after it read one at a time. -/
theorem collectRegions_bind (endKey : Key) (rest : List RegionInfo) :
    ∀ (page : List RegionInfo) (regions : RegionsInfo) (scanKey : Key),
      (collectRegions endKey (page.map some) regions scanKey).bind
          (fun res => if res.2.2 then some res.1 else setWhile endKey rest res.1) =
        setWhile endKey (page ++ rest) regions
  | [], regions, scanKey => by simp [collectRegions]
  | r :: page, regions, scanKey => by
      simp only [List.map_cons, collectRegions, List.cons_append, setWhile]
      split
      · cases regions.setRegion r with
        | none => rfl
        | some res =>
            simp only
            split
            · rfl
            · exact collectRegions_bind endKey rest page _ _
      · rfl

/-- Where the inner loop goes on to a next page, it read the whole page and
returns the end key of its last region, which is not empty. -/
theorem collectRegions_continue (endKey : Key) :
    ∀ (page : List RegionInfo) (regions regions' : RegionsInfo) (scanKey scanKey' : Key),
      collectRegions endKey (page.map some) regions scanKey = some (regions', scanKey', false) →
      page = [] ∨ ∃ a, page.getLast? = some a ∧ a.regionMeta.endKey ≠ [] ∧ scanKey' = a.regionMeta.endKey
  | [], _, _, _, _, _ => .inl rfl
  | r :: page, regions, regions', scanKey, scanKey', h => by
      simp only [List.map_cons, collectRegions] at h
      split at h
      · cases hset : regions.setRegion r with
        | none => simp [hset] at h
        | some res =>
            simp only [hset] at h
            split at h
            · simp at h
            · next hend =>
              refine .inr ?_
              rcases collectRegions_continue endKey page _ _ _ _ h with rfl | ⟨a, ha, hne, rfl⟩
              · simp only [List.map_nil, collectRegions, Option.some.injEq, Prod.mk.injEq] at h
                exact ⟨r, rfl, fun hnil => by simp [hnil] at hend, h.2.1.symm⟩
              · exact ⟨a, by rw [List.getLast?_cons, ha]; rfl, hne, rfl⟩
      · simp at h

/-! ## The regions of a consistent cache -/

/-- The start of a region's range. -/
abbrev regionLo (ri : RegionInfo) : Key := ri.regionMeta.startKey

/-- The end of a region's range, `⊤` for an empty end key. -/
abbrev regionHi (ri : RegionInfo) : WithTop Key := rangeHi ri.regionMeta

/-- How the regions of a consistent cache lie in key order: a chain of
nonempty ranges, of distinct ids, each region well formed. -/
structure Layout (l : List RegionInfo) : Prop where
  chain : KeyRange.Chain regionLo regionHi l
  proper : ∀ ri ∈ l, KeyRange.Proper regionLo regionHi ri
  nodup : (l.map RegionInfo.getID).Nodup
  wellFormed : ∀ ri ∈ l, ri.WellFormed

theorem Layout.sublist {l l' : List RegionInfo} (h : Layout l) (hsub : l' <+ l) : Layout l' where
  chain := List.Pairwise.sublist hsub h.chain
  proper := fun ri hri => h.proper ri (hsub.subset hri)
  nodup := h.nodup.sublist (hsub.map _)
  wellFormed := fun ri hri => h.wellFormed ri (hsub.subset hri)

theorem layout_regionsInKeyOrder {cluster : RegionsInfo} (h : cluster.Consistent) :
    Layout cluster.regionsInKeyOrder := by
  have hmap := h.map_regionMeta_regionsInKeyOrder
  have hmem : ∀ ri ∈ cluster.regionsInKeyOrder, ri.regionMeta ∈ cluster.tree.tree.items :=
    fun ri hri => hmap ▸ List.mem_map_of_mem hri
  refine ⟨?_, fun ri hri => h.tree.wf.proper _ (hmem ri hri), ?_, fun ri hri => ?_⟩
  · have hchain := h.tree.wf.chain
    rw [← hmap] at hchain
    exact List.pairwise_map.mp hchain
  · have hids := h.tree.nodup_ids
    rw [← hmap, List.map_map] at hids
    exact hids
  · obtain ⟨x, -, hx⟩ := List.mem_filterMap.mp hri
    exact h.indexes.wellFormed _ _ hx

/-- A consistent cache holds under an id exactly the region of that id in
key order. -/
theorem getRegion_eq_some_iff {cluster : RegionsInfo} (h : cluster.Consistent) {id : UInt64}
    {ri : RegionInfo} : cluster.getRegion id = some ri ↔ ri ∈ cluster.regionsInKeyOrder ∧ ri.getID = id := by
  constructor
  · intro hri
    have hid : ri.getID = id := h.indexes.getID hri
    refine ⟨List.mem_filterMap.mpr ⟨ri.regionMeta, h.tree.stored id ri hri, ?_⟩, hid⟩
    show cluster.getRegion ri.getID = some ri
    rw [hid]
    exact hri
  · rintro ⟨hri, rfl⟩
    obtain ⟨x, -, hx⟩ := List.mem_filterMap.mp hri
    rw [h.indexes.getID hx]
    exact hx

/-- Setting a region that meets none of the regions set before, under an id
none of them has, adds it to them. -/
theorem setView_of_sep {v : UInt64 → Option RegionInfo} {P : List RegionInfo} {a : RegionInfo}
    (hv : ∀ id ri, v id = some ri ↔ ri ∈ P ∧ ri.getID = id)
    (hsep : ∀ ri ∈ P, ¬ Meets a.regionMeta ri.regionMeta) (hid : ∀ ri ∈ P, ri.getID ≠ a.getID) :
    ∀ id ri, setView v a id = some ri ↔ ri ∈ P ++ [a] ∧ ri.getID = id := by
  intro id ri
  unfold setView
  by_cases hida : id = a.getID
  · subst hida
    rw [Function.update_self, Option.some.injEq]
    constructor
    · rintro rfl
      exact ⟨List.mem_append_right _ (List.mem_singleton_self _), rfl⟩
    · rintro ⟨hri, hri'⟩
      rcases List.mem_append.mp hri with hP | ha
      · exact absurd hri' (hid ri hP)
      · exact (List.mem_singleton.mp ha).symm
  · rw [Function.update_of_ne hida, evict]
    cases hvid : v id with
    | none =>
        simp only [Option.filter_none, reduceCtorEq, false_iff, not_and]
        intro hri hri'
        rcases List.mem_append.mp hri with hP | ha
        · have := (hv id ri).mpr ⟨hP, hri'⟩
          rw [hvid] at this
          cases this
        · rw [List.mem_singleton.mp ha] at hri'
          exact hida hri'.symm
    | some ri₀ =>
        have h₀ := (hv id ri₀).mp hvid
        simp only [Option.filter_some, hsep ri₀ h₀.1, decide_false, Bool.not_false, if_true,
          Option.some.injEq]
        constructor
        · rintro rfl
          exact ⟨List.mem_append_left _ h₀.1, h₀.2⟩
        · rintro ⟨hri, hri'⟩
          rcases List.mem_append.mp hri with hP | ha
          · have := (hv id ri).mpr ⟨hP, hri'⟩
            rw [hvid, Option.some.injEq] at this
            exact this
          · rw [List.mem_singleton.mp ha] at hri'
            exact absurd hri'.symm hida

/-- Reading the regions of a chain one at a time from a cache holding the
regions `P` before them sets, in order, those starting before `endKey`. -/
theorem setWhile_spec (endKey : Key) :
    ∀ (T P : List RegionInfo) (regions : RegionsInfo), Layout (P ++ T) → regions.Consistent →
      (∀ id ri, regions.getRegion id = some ri ↔ ri ∈ P ∧ ri.getID = id) →
      ∃ rc, setWhile endKey T regions = some rc ∧ rc.Consistent ∧
        ∀ id ri, rc.getRegion id = some ri ↔
          ri ∈ P ++ T.takeWhile (fun ri => decide (ri.regionMeta.startKey < endKey)) ∧ ri.getID = id
  | [], P, regions, _, hc, hv => ⟨regions, rfl, hc, by simpa using hv⟩
  | a :: T, P, regions, hl, hc, hv => by
      have ha : a ∈ P ++ a :: T := List.mem_append_right _ List.mem_cons_self
      obtain ⟨-, hcT, hcross⟩ := List.pairwise_append.mp hl.chain
      obtain ⟨-, -, hids⟩ := List.nodup_append.mp (List.map_append ▸ hl.nodup)
      by_cases hlt : a.regionMeta.startKey < endKey
      · obtain ⟨rc₁, overlaps, hset, hc₁, hview₁⟩ := hc.setRegion (hl.wellFormed a ha)
        -- the regions set before `a` end before it starts, and have other ids
        have hv₁ : ∀ id ri, rc₁.getRegion id = some ri ↔ ri ∈ P ++ [a] ∧ ri.getID = id := by
          rw [hview₁]
          refine setView_of_sep hv (fun ri hri hmeet => ?_) (fun ri hri => ?_)
          · exact absurd hmeet.2 (not_lt.mpr (hcross ri hri a List.mem_cons_self))
          · exact hids _ (List.mem_map_of_mem hri) _ (List.mem_map_of_mem List.mem_cons_self)
        have hkeep : (fun ri : RegionInfo => decide (ri.regionMeta.startKey < endKey)) a = true :=
          decide_eq_true hlt
        simp only [setWhile, if_pos hlt, hset]
        split
        · next hempty =>
          -- no region follows one whose range is unbounded
          have hT : T = [] := by
            refine List.eq_nil_iff_forall_not_mem.mpr fun b hb => ?_
            have hab := (List.pairwise_cons.mp hcT).1 b hb
            rw [regionHi, rangeHi, List.isEmpty_iff.mp hempty, endBound_nil] at hab
            exact absurd hab (by simp)
          subst hT
          refine ⟨rc₁, rfl, hc₁, fun id ri => ?_⟩
          rw [@List.takeWhile_cons_of_pos _ _ a [] hkeep, List.takeWhile_nil]
          exact hv₁ id ri
        · obtain ⟨rc, hrun, hrc, hvrc⟩ :=
            setWhile_spec endKey T (P ++ [a]) rc₁ (by simpa using hl) hc₁ hv₁
          refine ⟨rc, hrun, hrc, fun id ri => ?_⟩
          rw [hvrc, @List.takeWhile_cons_of_pos _ _ a T hkeep, List.append_assoc, List.singleton_append]
      · refine ⟨regions, by simp only [setWhile, if_neg hlt], hc, fun id ri => ?_⟩
        have hstop : (fun ri : RegionInfo => decide (ri.regionMeta.startKey < endKey)) a = false :=
          decide_eq_false hlt
        rw [@List.takeWhile_cons_of_neg _ _ a T (by simp [hstop]), List.append_nil]
        exact hv id ri

/-! ## The pages -/

/-- The cached regions starting at or after `k`, in key order. -/
def regionsFrom (cluster : RegionsInfo) (k : Key) : List RegionInfo :=
  cluster.regionsInKeyOrder.filter fun ri => decide (k ≤ ri.regionMeta.startKey)

theorem regionsFrom_suffix {cluster : RegionsInfo} (h : cluster.Consistent) (k : Key) :
    regionsFrom cluster k <:+ cluster.regionsInKeyOrder := by
  have hL := layout_regionsInKeyOrder h
  unfold regionsFrom
  rw [KeyRange.filter_le_lo_eq_dropWhile hL.chain hL.proper]
  exact List.dropWhile_suffix _

/-- The page after the last region `a` of a page starts at `a`'s end key:
the regions from there on are the ones after the page. -/
theorem regionsFrom_endKey {cluster : RegionsInfo} (h : cluster.Consistent) {k : Key} {page rest : List RegionInfo}
    {a : RegionInfo} (hsplit : regionsFrom cluster k = page ++ rest) (hlast : page.getLast? = some a)
    (hne : a.regionMeta.endKey ≠ []) : regionsFrom cluster a.regionMeta.endKey = rest := by
  have hL := layout_regionsInKeyOrder h
  obtain ⟨init, rfl⟩ := List.getLast?_eq_some_iff.mp hlast
  obtain ⟨pre, hpre⟩ := regionsFrom_suffix h k
  -- the regions in key order are those before the page, the page, then `rest`
  have hsplitL : cluster.regionsInKeyOrder = (pre ++ init) ++ a :: rest := by
    rw [← hpre, hsplit]
    simp
  unfold regionsFrom
  rw [hsplitL] at hL ⊢
  exact KeyRange.filter_hi_le_lo hL.chain hL.proper (endBound_of_ne_nil hne)

/-- With more passes than regions from the scan key on, the loops set, one
at a time, the regions from the scan key on: the pages are read in order,
each from the end of the last. -/
theorem genRangeLoop_eq {cluster : RegionsInfo} (h : cluster.Consistent) (endKey : Key) :
    ∀ (fuel : Nat) (regions : RegionsInfo) (scanKey : Key), (regionsFrom cluster scanKey).length < fuel →
      genRangeLoop cluster endKey fuel regions scanKey = setWhile endKey (regionsFrom cluster scanKey) regions
  | 0, _, _, hfuel => absurd hfuel (Nat.not_lt_zero _)
  | fuel + 1, regions, scanKey, hfuel => by
      have hscan : cluster.scanRange scanKey scanLimit =
          ((regionsFrom cluster scanKey).take scanLimit).map some :=
        h.scanRange_eq scanKey (by decide)
      simp only [genRangeLoop, hscan, List.length_map, List.length_take]
      split
      · next hempty =>
        -- an empty page: no region is left from the scan key on
        have hnil : regionsFrom cluster scanKey = [] :=
          List.eq_nil_of_length_eq_zero (by simp only [scanLimit] at hempty; omega)
        rw [hnil]
        rfl
      · next hpage =>
        conv_rhs => rw [← List.take_append_drop scanLimit (regionsFrom cluster scanKey)]
        rw [← collectRegions_bind]
        cases hcol : collectRegions endKey (((regionsFrom cluster scanKey).take scanLimit).map some)
            regions scanKey with
        | none => rfl
        | some res =>
            obtain ⟨regions', scanKey', loopEnd⟩ := res
            cases loopEnd with
            | true => rfl
            | false =>
                -- a whole page read: go on from the end key of its last region
                rcases collectRegions_continue endKey _ _ _ _ _ hcol with hnil | ⟨a, ha, hne, rfl⟩
                · exact absurd (List.length_eq_zero_iff.mpr hnil) (by simpa using hpage)
                · have hfrom := regionsFrom_endKey h (List.take_append_drop scanLimit _).symm ha hne
                  simp only [Option.bind_some, Bool.false_eq_true, if_false]
                  rw [genRangeLoop_eq h endKey fuel regions' _ (by rw [hfrom, List.length_drop]; omega), hfrom]

/-- `GenRangeCluster` over a consistent cache ends, and its regions are the
cached regions starting at or after `startKey` and before `endKey`. -/
theorem genRangeCluster_spec {cluster : RegionsInfo} (h : cluster.Consistent) (startKey endKey : Key) :
    ∃ regions, genRangeCluster cluster startKey endKey = some regions ∧ regions.Consistent ∧
      ∀ id ri, regions.getRegion id = some ri ↔
        cluster.getRegion id = some ri ∧ startKey ≤ ri.regionMeta.startKey ∧ ri.regionMeta.startKey < endKey := by
  have hL := layout_regionsInKeyOrder h
  have hfrom := regionsFrom_suffix h startKey
  have hlen : (regionsFrom cluster startKey).length < cluster.tree.length + 1 := by
    have hitems := congrArg List.length h.map_regionMeta_regionsInKeyOrder
    rw [List.length_map] at hitems
    have := hfrom.sublist.length_le
    simp only [RegionTree.length, Vendor.BTree.len]
    omega
  obtain ⟨rc, hrun, hrc, hview⟩ := setWhile_spec endKey (regionsFrom cluster startKey) [] newRegionsInfo
    (by simpa using hL.sublist hfrom.sublist) consistent_newRegionsInfo
    (fun id ri => by simp [RegionsInfo.getRegion, newRegionsInfo])
  refine ⟨rc, by rw [genRangeCluster, genRangeLoop_eq h endKey _ _ _ hlen]; exact hrun, hrc, fun id ri => ?_⟩
  -- the regions from `startKey` on start in increasing order, so those before
  -- `endKey` come first
  have hmono : (regionsFrom cluster startKey).Pairwise (fun x y =>
      decide (y.regionMeta.startKey < endKey) = true → decide (x.regionMeta.startKey < endKey) = true) :=
    ((hL.sublist hfrom.sublist).chain.lo_lt (hL.sublist hfrom.sublist).proper).imp fun hxy hy =>
      decide_eq_true (hxy.trans (of_decide_eq_true hy))
  rw [hview, List.nil_append, KeyRange.takeWhile_eq_filter hmono, getRegion_eq_some_iff h]
  simp only [regionsFrom, List.mem_filter, decide_eq_true_eq]
  tauto

theorem range_cluster_empty_end_key_collects_nothing :
    (∀ cluster : RegionsInfo, cluster.Consistent → ∀ startKey endKey : Key,
      ∃ regions, genRangeCluster cluster startKey endKey = some regions ∧ regions.Consistent ∧
        ∀ id ri, regions.getRegion id = some ri ↔
          cluster.getRegion id = some ri ∧ startKey ≤ ri.regionMeta.startKey ∧ ri.regionMeta.startKey < endKey) ∧
    abCache.Consistent ∧ abCache.getRegion 1 = some abRegion ∧ ([] : Key) ≤ abRegion.regionMeta.startKey ∧
      (genRangeCluster abCache [] []).map (fun regions => regions.getRegion 1) = some none :=
  ⟨fun _ h => genRangeCluster_spec h, consistent_setRegion_new wellFormed_abRegion, by decide, nil_le_key _,
    by decide⟩

end PlacementDriver.Schedule
