import PlacementDriver.Schedule.Cluster
import PlacementDriver.Go.Int

/-!
# Placement constraints and their scores

A placement constraint such as `count(zone:z1,rack:r1,host)>=3` evaluates a
function over a region's stores and compares the value with a bound
(`constraint.go`, `functions.go`). `Score` turns the comparison into a number:
"the greater score is better; a negative score means the constraint is not
satisfied". Each operator has its own difference, computed in Go's `int`,
which wraps modulo `2 ^ 64`; for `=` the difference goes through `float64`
and back.

The score's sign agrees with the comparison whenever the difference between
the bound and the value does not wrap, and for `=` always: there the float
conversion may round, and out of range it gives `math.MinInt64`, but it never
turns a nonzero difference into a zero one. The parser accepts any Go `int`
as a bound, and a bound near `math.MinInt64` wraps the difference: the count
constraint `count()<=-9223372036854775808` scores `math.MaxInt64` on a
region with one store (`countAtMostMinInt`).

The `Cluster` of the package is read through the two queries the functions
make; `GetRegion` and `GetStores` are not used by them.

## Main results

* `score_nonneg_iff_of_mem`: with the difference in range, a score of `<`,
  `<=`, `>=` or `>` is not negative exactly when the constraint holds.
* `score_eq_nonneg_iff`: a score of `=` is not negative exactly when the
  value equals the bound, for every bound.
-/

namespace PlacementDriver.Placement

open Go.Int Verified.Binary64

/-- `Filter`: a `key:value` argument, which a store passes when its label
`key` has the value `value`. -/
structure Filter where
  key : String
  value : String
deriving DecidableEq, Repr

/-- `Constraint`: `Function(Filters, Labels) Op Value`. -/
structure Constraint where
  /-- one of `functionList` -/
  function : String
  filters : List Filter
  labels : List String
  /-- one of `"<"`, `"<="`, `"="`, `">="`, `">"` -/
  op : String
  value : Int64
deriving DecidableEq, Repr

/-- `functionList`. -/
def functionList : List String := ["count", "label_values", "count_leader", "isolation_level"]

/-- `Cluster`, with the queries the functions make. -/
structure Cluster where
  getStore : UInt64 → Option StoreInfo
  getRegionStores : UInt64 → List StoreInfo

/-- What a constraint asks of a value `v`: `v Op bound`. -/
def Holds (op : String) (v bound : Int64) : Prop :=
  (op = "<" ∧ v < bound) ∨ (op = "<=" ∧ v ≤ bound) ∨ (op = "=" ∧ v = bound) ∨
    (op = ">=" ∧ bound ≤ v) ∨ (op = ">" ∧ bound < v)

instance holdsDecidable (op : String) (v bound : Int64) : Decidable (Holds op v bound) :=
  inferInstanceAs (Decidable (_ ∨ _))

namespace Constraint

variable (c : Constraint)

/-- `matchStore(store)`: the store passes every filter. -/
def matchStore (store : StoreInfo) : Bool :=
  c.filters.all fun f => store.getLabelValue f.key == f.value

/-- `filterStores(stores)`. -/
def filterStores (stores : List StoreInfo) : List StoreInfo := stores.filter c.matchStore

/-- `labelValues(store, labels)`: the store's values of `labels`, each
followed by `/`. The method does not read its receiver. -/
def labelValues (store : StoreInfo) (labels : List String) : String :=
  labels.foldl (fun str label => str ++ store.getLabelValue label ++ "/") ""

/-- `countLabelValues(stores, labels)`: how many distinct value tuples of
`labels` the stores have, the size of the Go set of them. The method does not
read its receiver. -/
def countLabelValues (stores : List StoreInfo) (labels : List String) : Int64 :=
  if labels.length = 0 then 0 else .ofNat (stores.map fun s => labelValues s labels).dedup.length

/-- `evalCount`. -/
def evalCount (region : RegionInfo) (cluster : Cluster) : Int64 :=
  .ofNat (c.filterStores (cluster.getRegionStores region.getID)).length

/-- `evalLabelValues`. -/
def evalLabelValues (region : RegionInfo) (cluster : Cluster) : Int64 :=
  countLabelValues (c.filterStores (cluster.getRegionStores region.getID)) c.labels

/-- `evalCountLeader`: a nil leader reads as store id `0`. -/
def evalCountLeader (region : RegionInfo) (cluster : Cluster) : Int64 :=
  match cluster.getStore region.leaderStoreId with
  | some leaderStore => if c.matchStore leaderStore then 1 else 0
  | none => 0

/-- `evalIsolationLevel`: `len(Labels) - i` for the first `i` at which the
first `i + 1` labels already tell every store apart. -/
def evalIsolationLevel (region : RegionInfo) (cluster : Cluster) : Int64 :=
  let stores := c.filterStores (cluster.getRegionStores region.getID)
  match (List.range c.labels.length).find? (fun i =>
      countLabelValues stores (c.labels.take (i + 1)) == .ofNat stores.length) with
  | some i => .ofNat (c.labels.length - i)
  | none => 0

/-- `eval(region, cluster)`. -/
def eval (region : RegionInfo) (cluster : Cluster) : Int64 :=
  match c.function with
  | "count" => c.evalCount region cluster
  | "label_values" => c.evalLabelValues region cluster
  | "count_leader" => c.evalCountLeader region cluster
  | "isolation_level" => c.evalIsolationLevel region cluster
  | _ => 0

/-- `Score(region, cluster)`, with `v0 := Value` and `v := eval(region, cluster)`;
for `=` it is `-int(math.Abs(float64(v - v0)))`. -/
def score (region : RegionInfo) (cluster : Cluster) : Int64 :=
  match c.op with
  | "=" => -truncToInt64 |roundInt (c.eval region cluster - c.value).toInt|
  | "<=" => c.value - c.eval region cluster
  | ">=" => c.eval region cluster - c.value
  | "<" => c.value - c.eval region cluster - 1
  | ">" => c.eval region cluster - c.value - 1
  | _ => -1

/-- The constraint holds on the region: `eval(region, cluster) Op Value`. -/
def Satisfied (region : RegionInfo) (cluster : Cluster) : Prop :=
  Holds c.op (c.eval region cluster) c.value

instance satisfiedDecidable (region : RegionInfo) (cluster : Cluster) : Decidable (c.Satisfied region cluster) :=
  holdsDecidable _ _ _

/-! ## The sign of the score -/

variable {c : Constraint} {region : RegionInfo} {cluster : Cluster}

/-- The score of `=` as a function of the difference `d`:
`-int(math.Abs(float64(d)))` is not negative exactly when `d` is zero, as a
nonzero integer never rounds to a zero float. -/
theorem neg_trunc_abs_nonneg_iff (d : Int64) : 0 ≤ -truncToInt64 |roundInt d.toInt| ↔ d = 0 := by
  by_cases hd : d = 0
  · subst hd
    rw [Int64.toInt_zero, roundInt_of_natAbs_lt (by decide), abs_zero]
    exact iff_of_true (by decide) rfl
  · have hne : d.toInt ≠ 0 := fun h => hd (Int64.toInt_inj.mp (h.trans Int64.toInt_zero.symm))
    exact iff_of_false (Int64.not_le.mpr (neg_truncToInt64_neg (abs_pos.mpr (roundInt_ne_zero hne)))) hd

theorem score_eq_nonneg_iff (hop : c.op = "=") : 0 ≤ c.score region cluster ↔ c.Satisfied region cluster := by
  simp only [score, Satisfied, Holds, hop, neg_trunc_abs_nonneg_iff, sub_eq_zero_iff]
  simp

/-- The four orderings: each score is a difference, less one for a strict
operator, and while it does not wrap its sign is the comparison's. -/
theorem score_nonneg_iff_of_mem (hop : c.op ∈ ["<", "<=", ">=", ">"])
    (h : (c.value.toInt - (c.eval region cluster).toInt).natAbs < 2 ^ 63) :
    0 ≤ c.score region cluster ↔ c.Satisfied region cluster := by
  have h' : ((c.eval region cluster).toInt - c.value.toInt).natAbs < 2 ^ 63 := by omega
  simp only [List.mem_cons, List.not_mem_nil, or_false] at hop
  rcases hop with hop | hop | hop | hop
  · simp only [score, Satisfied, Holds, hop, sub_one_nonneg_iff h]
    simp
  · simp only [score, Satisfied, Holds, hop, sub_nonneg_iff h]
    simp
  · simp only [score, Satisfied, Holds, hop, sub_nonneg_iff h']
    simp
  · simp only [score, Satisfied, Holds, hop, sub_one_nonneg_iff h']
    simp

end Constraint

/-! ## A bound at the end of the range -/

/-- A region with one peer, the leader, on store 1. -/
def oneStoreRegion : RegionInfo :=
  newRegionInfo ⟨1, [], [], ⟨1, 1⟩, [⟨11, 1, false⟩]⟩ (some ⟨11, 1, false⟩)

/-- A cluster in which every region has store 1 as its only store. -/
def oneStoreCluster : Cluster :=
  ⟨fun id => if id = 1 then some (upStore 1 []) else none, fun _ => [upStore 1 []]⟩

/-- `count()<=-9223372036854775808`: the parser reads the bound with
`strconv.Atoi`, which accepts `math.MinInt64`. -/
def countAtMostMinInt : Constraint := ⟨"count", [], [], "<=", Int64.minValue⟩

/-- The score's sign is the comparison's while the difference does not wrap,
and for `=` always; a count of one against the bound `math.MinInt64` wraps
`Value - eval` to `math.MaxInt64`, a score that says the constraint holds
although `1 <= math.MinInt64` is false. -/
theorem score_sign_wraps_at_min_int :
    (∀ (c : Constraint) (region : RegionInfo) (cluster : Cluster), c.op ∈ ["<", "<=", ">=", ">"] →
      (c.value.toInt - (c.eval region cluster).toInt).natAbs < 2 ^ 63 →
        (0 ≤ c.score region cluster ↔ c.Satisfied region cluster)) ∧
    (∀ (c : Constraint) (region : RegionInfo) (cluster : Cluster), c.op = "=" →
      (0 ≤ c.score region cluster ↔ c.Satisfied region cluster)) ∧
    countAtMostMinInt.eval oneStoreRegion oneStoreCluster = 1 ∧
    countAtMostMinInt.score oneStoreRegion oneStoreCluster = Int64.maxValue ∧
    ¬ countAtMostMinInt.Satisfied oneStoreRegion oneStoreCluster :=
  ⟨fun _ _ _ hop h => Constraint.score_nonneg_iff_of_mem hop h, fun _ _ _ hop => Constraint.score_eq_nonneg_iff hop,
    by decide, by decide, by decide⟩

end PlacementDriver.Placement
