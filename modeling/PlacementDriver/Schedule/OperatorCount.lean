import PlacementDriver.Schedule.OperatorController
import PlacementDriver.Verified.GoMap
import PlacementDriver.Verified.BitFlags

/-!
# Counting the running operators by kind

`OperatorCount(mask)` (`operator_controller.go`) adds the counts of the kinds
that hold a flag of `mask`. The counts are recomputed from the operators by
`updateCounts` after every change of the controller, so `OperatorCount(mask)`
is the number of running operators whose kind holds a flag of `mask`. The
schedulers and the patrol of the coordinator compare it with the schedule
limits. `OperatorCount` adds `uint64` counts, which never reach `2 ^ 64`: it
is a natural number here.

Each operation of the controller changes one entry of its map, so it changes
a count by at most what it writes (`Verified.GoMap.countValues_insert_le`).

## Main results

* `operatorCount_addOperator_le`: `AddOperator` adds to a count at most the
  operators of the batch that the mask counts.
* `operatorCount_dispatch_le`, `operatorCount_checkOperators_le`,
  `operatorCount_removeOperator_le`: `Dispatch`, `checkOperators` and
  `RemoveOperator` never raise a count.
-/

namespace PlacementDriver

open Verified.GoMap Verified.BitFlags

namespace Schedule.OperatorController

/-- `OperatorCount(mask)`: the running operators whose kind holds a flag of
`mask`. -/
def operatorCount (oc : OperatorController) (mask : OperatorKind) : Nat :=
  oc.getOperators.countP fun op => op.kind &&& mask != 0

variable (oc : OperatorController) (getRegion : UInt64 → Option RegionInfo) (mask : OperatorKind)

theorem operatorCount_eq_countValues :
    oc.operatorCount mask = countValues (fun op : Operator => hasFlag op.kind mask) oc.operators := by
  simp only [operatorCount, getOperators, countValues, List.countP_map]
  rfl

/-- The check `addOperatorLocked` makes keeps the operator's kind. -/
theorem kind_addOperatorLocked (op : Operator) :
    (match getRegion op.regionID with
      | some region => (op.check region).1
      | none => op).kind = op.kind := by
  split <;> rfl

theorem operatorCount_addOperatorLocked_le (op : Operator) :
    (oc.addOperatorLocked getRegion op).operatorCount mask ≤
      oc.operatorCount mask + if hasFlag op.kind mask then 1 else 0 := by
  simp only [operatorCount_eq_countValues, addOperatorLocked]
  rw [← kind_addOperatorLocked getRegion op]
  exact countValues_insert_le _ _ _ _

theorem operatorCount_foldl_addOperatorLocked_le :
    ∀ (ops : List Operator) (oc : OperatorController),
      (ops.foldl (addOperatorLocked · getRegion) oc).operatorCount mask ≤
        oc.operatorCount mask + ops.countP fun op => hasFlag op.kind mask
  | [], oc => by simp
  | op :: ops, oc => by
    have hop := operatorCount_addOperatorLocked_le oc getRegion mask op
    have hrest := operatorCount_foldl_addOperatorLocked_le ops (oc.addOperatorLocked getRegion op)
    rw [List.foldl_cons, List.countP_cons]
    omega

/-- `AddOperator` adds to a count at most the operators of the batch that the
mask counts. -/
theorem operatorCount_addOperator_le (ops : List Operator) :
    (oc.addOperator getRegion ops).1.operatorCount mask ≤
      oc.operatorCount mask + ops.countP fun op => hasFlag op.kind mask := by
  unfold addOperator
  split
  · exact operatorCount_foldl_addOperatorLocked_le getRegion mask ops oc
  · exact Nat.le_add_right _ _

theorem operatorCount_removeOperator_le (op : Operator) :
    (oc.removeOperator op).operatorCount mask ≤ oc.operatorCount mask := by
  simp only [operatorCount_eq_countValues, removeOperator]
  exact countValues_erase_le _ _ _

/-- `Dispatch` moves an operator on or removes it, and never raises a count. -/
theorem operatorCount_dispatch_le (now : Int) (region : RegionInfo) :
    (oc.dispatch now region).1.operatorCount mask ≤ oc.operatorCount mask := by
  unfold dispatch
  split
  · exact le_rfl
  · rename_i op hop
    -- the operator written back is the one read, with its kind
    have hsame : (⟨oc.operators.insert region.getID (op.check region).1⟩ : OperatorController).operatorCount mask =
        oc.operatorCount mask := by
      simp only [operatorCount_eq_countValues]
      exact countValues_insert_of_lookup _ hop _ rfl
    dsimp only
    split_ifs
    · exact hsame.le
    · exact (operatorCount_removeOperator_le _ mask _).trans hsame.le
    · exact (operatorCount_removeOperator_le _ mask _).trans hsame.le
    · exact hsame.le

theorem operatorCount_foldl_checkOperator_le (now : Int) :
    ∀ (ops : List Operator) (oc : OperatorController),
      (ops.foldl (checkOperator · getRegion now) oc).operatorCount mask ≤ oc.operatorCount mask
  | [], _ => le_rfl
  | op :: ops, oc => by
    have hop : (oc.checkOperator getRegion now op).operatorCount mask ≤ oc.operatorCount mask := by
      unfold checkOperator
      split_ifs
      · exact operatorCount_removeOperator_le oc mask op
      · exact operatorCount_removeOperator_le oc mask op
      · exact le_rfl
    exact (operatorCount_foldl_checkOperator_le now ops _).trans hop

theorem operatorCount_checkOperators_le (now : Int) :
    (oc.checkOperators getRegion now).operatorCount mask ≤ oc.operatorCount mask :=
  operatorCount_foldl_checkOperator_le getRegion mask now _ oc

end Schedule.OperatorController

end PlacementDriver
