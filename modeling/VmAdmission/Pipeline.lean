import VmAdmission.Payload
import VmAdmission.Preflight
import VmAdmission.Query

namespace VmAdmission

structure PipelineConfig where
  validation : ValidationConfig := {}
  admission : AdmissionConfig := {}
deriving DecidableEq

/-- What is done with an order: the lookups that are made, and what comes of them, which is a
dialogue on the store unless the checks were not passed. -/
abbrev Submission (α : Type) := Preflight (Dialogue α)

structure Attempt (α : Type) where
  lookups : List Lookup
  elapsed : Duration
  result : Except Halt α
  store : Store

namespace Submission

/-- An order that is refused without any lookup. -/
def refuse {α : Type} (error : RequestError) : Submission α :=
  ⟨[], ⟨0⟩, .error (.refused error)⟩

def run {α : Type} (submission : Submission α) (limit : Duration) (store : Store) : Attempt α :=
  let spent := submission.check.elapsed
  match submission.check.result with
  | .error halt => ⟨submission.lookups, spent, .error halt, store⟩
  | .ok dialogue =>
    let finished := (dialogue.run limit store).delay spent
    ⟨submission.lookups, finished.elapsed, finished.result.mapError .refused, finished.store⟩

end Submission

/-- The checks have passed; goes on with what they found out. -/
def Preflight.andThen {α β : Type} (preflight : Preflight α) (next : α → β) : Preflight β :=
  ⟨preflight.lookups, preflight.check.andThen fun value => .ok (next value)⟩

/-- A field that must be there and not empty. -/
def required (name : String) (value : Option String) : Except RequestError String :=
  match value with
  | some text => if text = "" then .error (.validationFailed (.fieldRequired name)) else .ok text
  | none => .error (.validationFailed (.fieldRequired name))

namespace DeployOrder

/-- Where and from what the order wants its machines, all of which it has to say. -/
def target (order : DeployOrder) : Except RequestError DeployTarget := do
  let imageId ← required "imageSource.imageId" order.imageSource.imageId
  let host ← required "destination.hostId" order.destination.hostId
  let cluster ← required "destination.clusterId" order.destination.clusterId
  return ⟨imageId, host, cluster⟩

def withImageFile (order : DeployOrder) (file : String) : DeployOrder :=
  { order with imageSource := { order.imageSource with imageName := some file } }

def requested (order : DeployOrder) : Int64 :=
  order.vmConfig.numberOfVms.getD 0

end DeployOrder

namespace PipelineConfig

def recordDeploy (config : PipelineConfig) (scope : Scope) (order : DeployOrder) :
    Dialogue Recorded :=
  recordRequest config.admission (scope.newRequest .deploy .new order.text)

/-- Checks and records a deployment order. Nothing is written before all checks have passed. -/
def deploy (config : PipelineConfig) (services : Services) (order : DeployOrder) (scope : Scope) :
    Submission Recorded :=
  match checkVmCount order.requested config.admission.maxVmsPerDeploy with
  | .error error => .refuse error
  | .ok () =>
    if config.validation.enabled then
      match order.target with
      | .error error => .refuse error
      | .ok target =>
        (services.validateDeploy config.validation target).andThen fun
          | some file => config.recordDeploy scope (order.withImageFile file)
          | none => config.recordDeploy scope order
    else ⟨[], ⟨0⟩, .ok (config.recordDeploy scope order)⟩

/-- The texts that cannot be the id of a machine, because they would be lost in a path. -/
def namelessIds : List String := ["", ".", ".."]

def submit (config : PipelineConfig) (services : Services) (operation : Operation)
    (order : VmOrder) (scope : Scope) : Submission Recorded :=
  if operation = .deploy then .refuse (.internal .deployWithoutOrder)
  else if order.vmId ∈ namelessIds then .refuse (.validationFailed (.namelessVm order.vmId))
  else
    (services.validateVm config.validation order.vmId operation).andThen fun () =>
      recordRequest config.admission (scope.newRequest operation .new order.text)

end PipelineConfig

end VmAdmission
