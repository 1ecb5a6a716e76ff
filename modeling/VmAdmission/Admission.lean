import VmAdmission.InstancePlan
import VmAdmission.Dialogue

namespace VmAdmission

/-- The tenant that a request is made for. -/
structure Scope where
  workspaceId : String := ""
  datacenterId : String := ""
deriving DecidableEq

structure AdmissionConfig where
  /-- The limit of each call to the store. -/
  storeTimeout : Duration := .ofSeconds 10
  /-- A deployment and its machines are written in one call and not in two. -/
  atomic : Bool := false
  /-- The most machines that one deployment may ask for. -/
  maxVmsPerDeploy : UInt32 := 1000
deriving DecidableEq

/-- A request that is in the ledger, with its machines. -/
structure Recorded where
  request : RequestRow
  instances : List InstanceRow
deriving DecidableEq

def Scope.newRequest (scope : Scope) (operation : Operation) (status : RequestStatus)
    (metadata : String) : NewRequest :=
  ⟨operation, status, scope.workspaceId, scope.datacenterId, metadata⟩

/-- Goes on with a value, or ends with the failure to find it. -/
def Dialogue.given {α β : Type} (value : Except RequestError α) (next : α → Dialogue β) :
    Dialogue β :=
  match value with
  | .ok value => next value
  | .error error => .fail error

/-- Records a deployment and its machines in one call. -/
def recordAtOnce (limit : UInt32) (new : NewRequest) : Dialogue Recorded :=
  .given (planInstances new.metadata limit) fun planned =>
    .ask (.createRequestWithInstances new planned) fun (request, instances) =>
      .done (.ok ⟨request, instances⟩)

def recordInstances (limit : UInt32) (request : RequestRow) (metadata : String) :
    Dialogue Recorded :=
  .given (planInstances metadata limit) fun planned =>
    if planned.isEmpty then .done (.ok ⟨request, []⟩)
    else .ask (.createInstances request.id planned) fun instances =>
      .done (.ok ⟨request, instances⟩)

/-- Records a request, and then its machines if it is a deployment. -/
def recordInTurn (limit : UInt32) (new : NewRequest) : Dialogue Recorded :=
  .ask (.createRequest new) fun request =>
    if new.operation = .deploy then recordInstances limit request new.metadata
    else .done (.ok ⟨request, []⟩)

/-- Records a request: a deployment at once or in turn with its machines, as is configured, and
anything else alone. -/
def recordRequest (config : AdmissionConfig) (new : NewRequest) : Dialogue Recorded :=
  if new.operation = .deploy ∧ config.atomic then recordAtOnce config.maxVmsPerDeploy new
  else recordInTurn config.maxVmsPerDeploy new

end VmAdmission
