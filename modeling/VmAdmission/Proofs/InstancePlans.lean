import VmAdmission.Pipeline
import VmAdmission.Proofs.Json.Records
import VmAdmission.Proofs.PlannedMachines

namespace VmAdmission

namespace Json

/-- The members that are there. -/
def present (members : List (String × Option Json)) : List (String × Json) :=
  members.filterMap fun m => m.2.map (m.1, ·)

/-- The value of a member is shorter than the object around it. -/
theorem length_value_lt {members : List (String × Json)} {member : String × Json}
    (inside : member ∈ members) :
    member.2.chars.length < (chars (.object members)).length := by
  have more {members : List (String × Json)} (inside : member ∈ members) :
      member.2.chars.length < (moreMembers members).length := by
    induction members with
    | nil => cases inside
    | cons first members ih =>
      simp only [moreMembers_cons, memberChars, List.length_cons, List.length_append]
      rcases List.mem_cons.mp inside with rfl | later
      · omega
      · have := ih later
        omega
  cases members with
  | nil => cases inside
  | cons first members =>
    simp only [chars_object_cons, memberChars, List.length_cons, List.length_append]
    rcases List.mem_cons.mp inside with rfl | later
    · omega
    · have := more later
      omega

/-- Members that are there by choice and that a record does not know are skipped. -/
theorem fills_present {σ α : Type} {shape : Decoder.Shape σ α} {budget : Budget} {draft : σ}
    {members : List (String × Option Json)} (other : shape.other = Decoder.skipMember)
    (unknown : ∀ key ∈ members.map (·.1), Unknown shape key)
    (room : ∀ member ∈ present members, member.2.chars.length < budget.symbols) :
    Fills shape budget draft (present members) draft := by
  refine fills_unknown other fun member inside => ⟨?_, room member inside⟩
  obtain ⟨⟨key, value⟩, listed, there⟩ := List.mem_filterMap.mp inside
  obtain ⟨j, -, rfl⟩ := Option.map_eq_some_iff.mp there
  exact unknown key (List.mem_map_of_mem listed)

end Json

open Json

/-- The plan that an order asks for, as its fields have it. -/
def VmConfig.plan (c : VmConfig) : InstancePlan := ⟨c.name, c.numberOfVms⟩

theorem VmConfig.reads_plan (c : VmConfig) {budget : Budget} {levels : Nat}
    (open_ : budget.levels = levels + 1) (room : c.json.chars.length ≤ budget.symbols) :
    Reads (.record InstancePlan.shape) budget c.json c.plan := by
  obtain ⟨name, numberOfVms, acceptEula, remark, locale, powerOn, propertyConfig⟩ := c
  let others : List (String × Option Json) := [
    ("acceptEula", acceptEula.map .bool),
    ("annotation", remark.map .string),
    ("locale", locale.map .string),
    ("powerOn", powerOn.map .bool),
    ("propertyConfig", propertyConfig.map (·.json))]
  have unknown : ∀ key ∈ others.map (·.1), Unknown InstancePlan.shape key := by
    intro key listed
    simp only [others, List.map_cons, List.map_nil, List.mem_cons, List.not_mem_nil,
      or_false] at listed
    rcases listed with rfl | rfl | rfl | rfl | rfl <;> rfl
  have shorter {members : List (String × Json)} (member : String × Json) (inside : member ∈ members)
      (fits : (chars (.object members)).length ≤ budget.symbols) :
      member.2.chars.length < budget.symbols :=
    Nat.lt_of_lt_of_le (length_value_lt inside) fits
  have readsName {members : List (String × Json)} (inside : ("name", .string name) ∈ members)
      (fits : (chars (.object members)).length ≤ budget.symbols) :
      Reads .string { budget with levels } (.string name) name := by
    refine reads_string (Nat.le_of_lt ?_)
    simpa only [chars_string] using shorter _ inside fits
  cases numberOfVms with
  | none =>
    have members : VmConfig.json ⟨name, none, acceptEula, remark, locale, powerOn, propertyConfig⟩ =
        .object (("name", .string name) :: present others) := rfl
    rw [members] at room ⊢
    refine reads_record open_ (.cons (sets_field rfl rfl (readsName (by simp) room))
      (fills_present rfl unknown fun member inside => shorter member (by simp [inside]) room))
      rfl room
  | some n =>
    have members :
        VmConfig.json ⟨name, some n, acceptEula, remark, locale, powerOn, propertyConfig⟩ =
          .object (("name", .string name) :: ("numberOfVms", .ofInt64 n) :: present others) := rfl
    rw [members] at room ⊢
    refine reads_record open_ (.cons (sets_field rfl rfl (readsName (by simp) room))
      (.cons (sets_field rfl rfl (reads_option reads_int64 Json.noConfusion))
        (fills_present rfl unknown fun member inside => shorter member (by simp [inside]) room)))
      rfl room

namespace DeployOrder

/-- The written order is read as the plan that its machines are named and counted by. -/
theorem reads_plan (order : DeployOrder) {budget : Budget} {levels : Nat}
    (open_ : budget.levels = levels + 2) (room : order.json.chars.length < budget.symbols) :
    Reads InstancePlan.decoder budget order.json order.vmConfig.plan := by
  obtain ⟨destination, imageSource, vmConfig, networkConfig, storageConfig, vmPolicy⟩ := order
  let others : List (String × Option Json) := [
    ("networkConfig", networkConfig.map (·.json)),
    ("storageConfig", storageConfig.map (·.json)),
    ("vmPolicy", vmPolicy.map (·.json))]
  let members : List (String × Json) :=
    ("destination", destination.json) :: ("imageSource", imageSource.json) ::
      ("vmConfig", vmConfig.json) :: present others
  have shorter (member : String × Json) (inside : member ∈ members) :
      member.2.chars.length < budget.symbols :=
    Nat.lt_trans (length_value_lt inside) room
  have unknown : ∀ key ∈ others.map (·.1), Unknown InstancePlan.orderShape key := by
    intro key listed
    simp only [others, List.map_cons, List.map_nil, List.mem_cons, List.not_mem_nil,
      or_false] at listed
    rcases listed with rfl | rfl | rfl <;> rfl
  have plan : Reads (.record InstancePlan.shape) { budget with levels := levels + 1 }
      vmConfig.json vmConfig.plan :=
    vmConfig.reads_plan rfl (Nat.le_of_lt (shorter ("vmConfig", vmConfig.json) (by simp [members])))
  have fills : Fills InstancePlan.orderShape { budget with levels := levels + 1 } none members
      (some vmConfig.plan) :=
    .cons (sets_unknown rfl rfl (shorter ("destination", destination.json) (by simp [members])))
      (.cons (sets_unknown rfl rfl (shorter ("imageSource", imageSource.json) (by simp [members])))
        (.cons (sets_field rfl rfl plan)
          (fills_present rfl unknown fun member inside =>
            shorter member (by simp [members, inside]))))
  exact reads_record open_ fills rfl (Nat.le_of_lt room)

/-- How many machines the order asks for. -/
def size (order : DeployOrder) : Nat :=
  order.requested.toInt.toNat

/-- The machines that the order asks for, named after their place and not begun. -/
def machines (order : DeployOrder) : List NewInstance :=
  (List.range order.size).map fun i => ⟨order.vmConfig.name ++ "_" ++ toString (i + 1), .init⟩

end DeployOrder

theorem VmConfig.plan_instances (order : DeployOrder) :
    order.vmConfig.plan.instances = order.machines := by
  have size : order.vmConfig.plan.size = order.size := by
    have count : order.vmConfig.plan.requested = max order.requested 0 := rfl
    rw [InstancePlan.size, count, toInt_max_zero, DeployOrder.size]
    omega
  rw [InstancePlan.instances, size]
  rfl

/-- What is planned from the text of an order is what the order asks for, if that is allowed. -/
theorem planInstances_text (order : DeployOrder) (limit : UInt32) :
    planInstances order.text limit =
      (checkVmCount order.requested limit).map fun () => order.machines := by
  have read : decodeString InstancePlan.decoder order.text = .ok order.vmConfig.plan :=
    decodeString_text (order.reads_plan rfl (Nat.lt_succ_self _))
  have count : checkVmCount order.vmConfig.plan.requested limit =
      checkVmCount order.requested limit := checkVmCount_max_zero ..
  rw [planInstances_of_plan read, count, VmConfig.plan_instances]

end VmAdmission
