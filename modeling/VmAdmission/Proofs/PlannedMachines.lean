import VmAdmission.InstancePlan
import VmAdmission.Ledger.Basic
import Std.Data.String.ToNat

namespace VmAdmission

namespace InstancePlan

theorem vmName_inj {base : String} {i j : Nat} (same : vmName base i = vmName base j) : i = j :=
  Nat.repr_inj.mp ((String.append_right_inj _).mp same)

/-- The machines of a plan have names of their own. -/
theorem names_nodup (plan : InstancePlan) : (plan.instances.map (·.vmName)).Nodup := by
  rw [instances, List.map_map, List.nodup_iff_pairwise_ne, List.pairwise_map]
  refine List.nodup_range.imp fun different same => different ?_
  exact Nat.succ.inj (vmName_inj same)

theorem instances_row (plan : InstancePlan) (id : Uuid) :
    plan.instances.map (·.row id) = (List.range plan.size).map fun i => {
      requestId := id
      vmName := plan.name ++ "_" ++ toString (i + 1)
      vmId := ""
      status := .init
      stateMessage := ""
      completedAt := none } :=
  List.map_map

end InstancePlan

theorem checkVmCount_ok_iff {count : Int64} {limit : UInt32} :
    checkVmCount count limit = .ok () ↔ count.toInt ≤ limit.toNat := by
  unfold checkVmCount
  split
  · simp only [reduceCtorEq, false_iff, Int.not_le]
    assumption
  · simp only [true_iff]
    omega

theorem checkVmCount_error {count : Int64} {limit : UInt32} {e : RequestError}
    (refused : checkVmCount count limit = .error e) : ∃ r, e = .validationFailed r := by
  unfold checkVmCount at refused
  split at refused <;> cases refused
  exact ⟨_, rfl⟩

theorem toInt_max_zero (count : Int64) : (max count 0).toInt = max count.toInt 0 := by
  have order : count ≤ 0 ↔ count.toInt ≤ 0 := Int64.le_iff_toInt_le
  change (if count ≤ 0 then (0 : Int64) else count).toInt = max count.toInt 0
  by_cases negative : count ≤ 0
  · rw [if_pos negative, Int.max_eq_right (order.mp negative)]
    rfl
  · have positive : 0 < count.toInt := Int.not_le.mp fun le => negative (order.mpr le)
    rw [if_neg negative, Int.max_eq_left (Int.le_of_lt positive)]

/-- A number below zero counts as none, which is within every limit. -/
theorem checkVmCount_max_zero (count : Int64) (limit : UInt32) :
    checkVmCount (max count 0) limit = checkVmCount count limit := by
  have most := toInt_max_zero count
  unfold checkVmCount
  by_cases above : (limit.toNat : Int) < count.toInt
  · have same : max count 0 = count := by
      apply Int64.toInt_inj.mp
      omega
    rw [same]
  · rw [if_neg above, if_neg (by omega)]

theorem planInstances_of_plan {metadata : String} {plan : InstancePlan}
    (read : Json.decodeString InstancePlan.decoder metadata = .ok plan) (limit : UInt32) :
    planInstances metadata limit =
      (checkVmCount plan.requested limit).map fun () => plan.instances := by
  rw [planInstances, read]
  change (checkVmCount plan.requested limit).bind (fun _ => .ok plan.instances) = _
  cases checkVmCount plan.requested limit <;> rfl

theorem planInstances_ok_iff {metadata : String} {limit : UInt32} {planned : List NewInstance} :
    planInstances metadata limit = .ok planned ↔
      ∃ plan, Json.decodeString InstancePlan.decoder metadata = .ok plan ∧
        checkVmCount plan.requested limit = .ok () ∧ planned = plan.instances := by
  cases read : Json.decodeString InstancePlan.decoder metadata with
  | error e =>
    have malformed : planInstances metadata limit = .error (.malformedInput e) := by
      rw [planInstances, read]
      rfl
    simp [malformed]
  | ok plan =>
    rw [planInstances_of_plan read]
    cases count : checkVmCount plan.requested limit with
    | error e => simp [Except.map, count]
    | ok => simp [Except.map, count, eq_comm]

theorem planInstances_nodup {metadata : String} {limit : UInt32} {planned : List NewInstance}
    (ok : planInstances metadata limit = .ok planned) : (planned.map (·.vmName)).Nodup := by
  obtain ⟨plan, -, -, rfl⟩ := planInstances_ok_iff.mp ok
  exact plan.names_nodup

end VmAdmission
