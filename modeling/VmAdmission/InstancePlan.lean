import VmAdmission.Failure
import VmAdmission.Ledger.Row

namespace VmAdmission

/-- The part of a deployment order that says which machines there are to be. -/
structure InstancePlan where
  name : String
  numberOfVms : Option Int64
deriving DecidableEq

namespace InstancePlan

structure Draft where
  name : Option String := none
  numberOfVms : Option (Option Int64) := none

def shape : Json.Decoder.Shape Draft InstancePlan where
  name := "DeployExtensionVmConfig"
  fields := [
    .of "name" true (·.name) (fun d x => { d with name := some x }) .string,
    .of "numberOfVms" false (·.numberOfVms) (fun d x => { d with numberOfVms := some x })
      (.option .int64)]
  empty := {}
  build d := do
    let some name := d.name | throw "name"
    return ⟨name, d.numberOfVms.join⟩

/-- The order around the plan. -/
def orderShape : Json.Decoder.Shape (Option InstancePlan) InstancePlan where
  name := "DeployExtension"
  fields := [.of "vmConfig" true id (fun _ x => some x) (.record shape)]
  empty := none
  build d := do
    let some plan := d | throw "vmConfig"
    return plan

def decoder : Json.Decoder InstancePlan := .record orderShape

/-- The number that is asked for, as it is compared with the limit. -/
def requested (plan : InstancePlan) : Int64 :=
  max (plan.numberOfVms.getD 0) 0

def size (plan : InstancePlan) : Nat :=
  plan.requested.toInt.toNat

/-- The name of one of the machines, counted from one. -/
def vmName (base : String) (n : Nat) : String :=
  base ++ "_" ++ toString n

def instances (plan : InstancePlan) : List NewInstance :=
  (List.range plan.size).map fun i => ⟨vmName plan.name (i + 1), .init⟩

end InstancePlan

def checkVmCount (count : Int64) (limit : UInt32) : Except RequestError Unit :=
  if (limit.toNat : Int) < count.toInt then .error (.validationFailed (.tooManyVms count limit))
  else .ok ()

/-- The machines that an order asks for. -/
def planInstances (metadata : String) (limit : UInt32) : Except RequestError (List NewInstance) := do
  let plan ← (Json.decodeString InstancePlan.decoder metadata).mapError .malformedInput
  checkVmCount plan.requested limit
  return plan.instances

end VmAdmission
