import VmAdmission.Operation
import VmAdmission.Time.Instant
import VmAdmission.Uuid

namespace VmAdmission

/-- A recorded request. -/
structure RequestRow where
  id : Uuid
  operation : Operation
  status : RequestStatus
  workspaceId : String
  datacenterId : String
  createdAt : Instant
  completedAt : Option Instant
  /-- The order, as it was given or as it was completed by validation. -/
  metadata : String
deriving DecidableEq

/-- A machine that a recorded request deploys. -/
structure InstanceRow where
  requestId : Uuid
  vmName : String
  /-- Empty until the machine exists. -/
  vmId : String
  status : InstanceStatus
  stateMessage : String
  completedAt : Option Instant
deriving DecidableEq

/-- A request to record. The ledger gives it an id and the time. -/
structure NewRequest where
  operation : Operation
  status : RequestStatus
  workspaceId : String
  datacenterId : String
  metadata : String
deriving DecidableEq

structure NewInstance where
  vmName : String
  status : InstanceStatus
deriving DecidableEq

namespace Uuid

def json (id : Uuid) : Json := .string id.text

/-- Reads an identifier in any of its forms. -/
def decoder : Json.Decoder Uuid :=
  .parsed .uuid fun source =>
    (parse source).mapError fun e => .malformed ("UUID parsing failed: " ++ e.message)

end Uuid

namespace Instant

def json (instant : Instant) : Json := .string instant.text

def decoder : Json.Decoder Instant :=
  .parsed .timestamp fun source => (parse source).mapError fun e => .malformed e.message

/-- The tree of an instant, or of none. -/
def optionJson (instant : Option Instant) : Json :=
  (instant.map json).getD .null

end Instant

namespace RequestRow

/-- The form in the ledger. -/
def json (row : RequestRow) : Json :=
  .object [
    ("request_id", row.id.json),
    ("operation", row.operation.json),
    ("request_status", row.status.json),
    ("workspace_id", .string row.workspaceId),
    ("datacenter_id", .string row.datacenterId),
    ("created_at", row.createdAt.json),
    ("completed_at", Instant.optionJson row.completedAt),
    ("request_metadata", .string row.metadata)]

/-- The form that callers get. -/
def apiJson (row : RequestRow) : Json :=
  .object [
    ("requestId", row.id.json),
    ("operation", row.operation.json),
    ("requestStatus", row.status.json),
    ("workspaceId", .string row.workspaceId),
    ("datacenterId", .string row.datacenterId),
    ("createdAt", row.createdAt.json),
    ("completedAt", Instant.optionJson row.completedAt),
    ("requestMetadata", .string row.metadata)]

structure Draft where
  id : Option Uuid := none
  operation : Option Operation := none
  status : Option RequestStatus := none
  workspaceId : Option String := none
  datacenterId : Option String := none
  createdAt : Option Instant := none
  completedAt : Option (Option Instant) := none
  metadata : Option String := none

def shape : Json.Decoder.Shape Draft RequestRow where
  name := "VmRequest"
  fields := [
    .of "request_id" true (·.id) (fun d x => { d with id := some x }) Uuid.decoder,
    .of "operation" true (·.operation) (fun d x => { d with operation := some x })
      Operation.decoder,
    .of "request_status" true (·.status) (fun d x => { d with status := some x })
      RequestStatus.decoder,
    .of "workspace_id" true (·.workspaceId) (fun d x => { d with workspaceId := some x }) .string,
    .of "datacenter_id" true (·.datacenterId) (fun d x => { d with datacenterId := some x })
      .string,
    .of "created_at" true (·.createdAt) (fun d x => { d with createdAt := some x })
      Instant.decoder,
    .of "completed_at" true (·.completedAt) (fun d x => { d with completedAt := some x })
      (.option Instant.decoder),
    .of "request_metadata" true (·.metadata) (fun d x => { d with metadata := some x }) .string]
  empty := {}
  build d := do
    let some id := d.id | throw "request_id"
    let some operation := d.operation | throw "operation"
    let some status := d.status | throw "request_status"
    let some workspaceId := d.workspaceId | throw "workspace_id"
    let some datacenterId := d.datacenterId | throw "datacenter_id"
    let some createdAt := d.createdAt | throw "created_at"
    let some metadata := d.metadata | throw "request_metadata"
    return ⟨id, operation, status, workspaceId, datacenterId, createdAt, d.completedAt.join,
      metadata⟩

def decoder : Json.Decoder RequestRow := .record shape

end RequestRow

namespace InstanceRow

def json (row : InstanceRow) : Json :=
  .object [
    ("request_id", row.requestId.json),
    ("vm_name", .string row.vmName),
    ("vm_id", .string row.vmId),
    ("vm_status", row.status.json),
    ("vm_state_message", .string row.stateMessage),
    ("completed_at", Instant.optionJson row.completedAt)]

def apiJson (row : InstanceRow) : Json :=
  .object [
    ("requestId", row.requestId.json),
    ("vmId", .string row.vmId),
    ("vmName", .string row.vmName),
    ("vmStatus", row.status.json),
    ("vmStateMessage", .string row.stateMessage),
    ("completedAt", Instant.optionJson row.completedAt)]

structure Draft where
  requestId : Option Uuid := none
  vmName : Option String := none
  vmId : Option String := none
  status : Option InstanceStatus := none
  stateMessage : Option String := none
  completedAt : Option (Option Instant) := none

def shape : Json.Decoder.Shape Draft InstanceRow where
  name := "VmDeployInstance"
  fields := [
    .of "request_id" true (·.requestId) (fun d x => { d with requestId := some x }) Uuid.decoder,
    .of "vm_name" true (·.vmName) (fun d x => { d with vmName := some x }) .string,
    .of "vm_id" true (·.vmId) (fun d x => { d with vmId := some x }) .string,
    .of "vm_status" true (·.status) (fun d x => { d with status := some x })
      InstanceStatus.decoder,
    .of "vm_state_message" true (·.stateMessage) (fun d x => { d with stateMessage := some x })
      .string,
    .of "completed_at" true (·.completedAt) (fun d x => { d with completedAt := some x })
      (.option Instant.decoder)]
  empty := {}
  build d := do
    let some requestId := d.requestId | throw "request_id"
    let some vmName := d.vmName | throw "vm_name"
    let some vmId := d.vmId | throw "vm_id"
    let some status := d.status | throw "vm_status"
    let some stateMessage := d.stateMessage | throw "vm_state_message"
    return ⟨requestId, vmName, vmId, status, stateMessage, d.completedAt.join⟩

def decoder : Json.Decoder InstanceRow := .record shape

end InstanceRow

end VmAdmission
