import VmAdmission.Failure
import VmAdmission.Ledger.Row
import Std.Data.HashSet

namespace VmAdmission

structure Faults where
  requestWrites : Bool := false
  instanceWrites : Bool := false
  instanceReads : Bool := false
deriving DecidableEq

/-- The rows recorded so far, oldest first. -/
structure Ledger where
  requests : List RequestRow := []
  instances : List InstanceRow := []
  /-- The names taken by the machines of each request. -/
  taken : Std.HashSet (Uuid × String) := ∅
  /-- The number of writes that were made. -/
  writes : Nat := 0
  faults : Faults := {}

/-- What a new request is marked with: its id and the time. -/
structure Stamp where
  id : Uuid
  createdAt : Instant

def NewRequest.row (new : NewRequest) (stamp : Stamp) : RequestRow where
  id := stamp.id
  operation := new.operation
  status := new.status
  workspaceId := new.workspaceId
  datacenterId := new.datacenterId
  createdAt := stamp.createdAt
  completedAt := none
  metadata := new.metadata

def NewInstance.row (new : NewInstance) (requestId : Uuid) : InstanceRow where
  requestId
  vmName := new.vmName
  vmId := ""
  status := new.status
  stateMessage := ""
  completedAt := none

namespace Ledger

/-- Fails when a part of the ledger does. -/
def check (failing : Bool) (part : FaultyPart) : Except StoreError Unit :=
  if failing then .error (.unavailable (.injected part)) else .ok ()

/-- The taken names with those of new machines, each of which must be free. -/
def takeNames (id : Uuid) :
    List NewInstance → Std.HashSet (Uuid × String) →
      Except StoreError (Std.HashSet (Uuid × String))
  | [], taken => .ok taken
  | new :: news, taken =>
    if (id, new.vmName) ∈ taken then .error (.constraint (.duplicate id new.vmName))
    else takeNames id news (taken.insert (id, new.vmName))

def hasRequest (ledger : Ledger) (id : Uuid) : Bool :=
  ledger.requests.any fun row => row.id == id

def createRequest (ledger : Ledger) (stamp : Stamp) (new : NewRequest) :
    Except StoreError (RequestRow × Ledger) := do
  check ledger.faults.requestWrites .requestWrites
  let row := new.row stamp
  return (row,
    { ledger with requests := ledger.requests ++ [row], writes := ledger.writes + 1 })

/-- Records the machines of a request that is in the ledger. -/
def createInstances (ledger : Ledger) (id : Uuid) (news : List NewInstance) :
    Except StoreError (List InstanceRow × Ledger) := do
  check ledger.faults.instanceWrites .instanceWrites
  if ¬ ledger.hasRequest id then throw (.constraint (.noParent id))
  let taken ← takeNames id news ledger.taken
  let rows := news.map (·.row id)
  return (rows,
    { ledger with
      instances := ledger.instances ++ rows
      taken
      writes := ledger.writes + 1 })

/-- Records a request together with its machines. -/
def createRequestWithInstances (ledger : Ledger) (stamp : Stamp) (new : NewRequest)
    (news : List NewInstance) : Except StoreError ((RequestRow × List InstanceRow) × Ledger) := do
  check ledger.faults.requestWrites .requestWrites
  check (!news.isEmpty && ledger.faults.instanceWrites) .instanceWrites
  let row := new.row stamp
  let taken ← takeNames row.id news ledger.taken
  let rows := news.map (·.row row.id)
  return ((row, rows),
    { ledger with
      requests := ledger.requests ++ [row]
      instances := ledger.instances ++ rows
      taken
      writes := ledger.writes + 1 })

def getRequest (ledger : Ledger) (id : Uuid) : Except StoreError RequestRow :=
  match ledger.requests.find? fun row => row.id == id with
  | some row => .ok row
  | none => .error .notFound

def listInstances (ledger : Ledger) (id : Uuid) : Except StoreError (List InstanceRow) := do
  check ledger.faults.instanceReads .instanceReads
  return ledger.instances.filter fun row => row.requestId == id

def listRequests (ledger : Ledger) : Except StoreError (List RequestRow) :=
  .ok ledger.requests

def listAllInstances (ledger : Ledger) : Except StoreError (List InstanceRow) := do
  check ledger.faults.instanceReads .instanceReads
  return ledger.instances

end Ledger

end VmAdmission
