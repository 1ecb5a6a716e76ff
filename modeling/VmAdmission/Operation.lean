import VmAdmission.Json.Decoder

namespace VmAdmission

/-- An operation in the life of a machine. -/
inductive Operation
  | deploy
  | powerOn
  | powerOff
  | delete
  | reset
  | refresh
  | restartGuestOs
  | shutdownGuestOs
  | reconfigure
deriving DecidableEq

namespace Operation

/-- All operations, in the order in which messages list them. -/
def all : List Operation :=
  [deploy, powerOn, powerOff, delete, reset, refresh, restartGuestOs, shutdownGuestOs, reconfigure]

def name : Operation → String
  | deploy => "DEPLOY"
  | powerOn => "POWER_ON"
  | powerOff => "POWER_OFF"
  | delete => "DELETE"
  | reset => "RESET"
  | refresh => "REFRESH"
  | restartGuestOs => "RESTART_GUEST_OS"
  | shutdownGuestOs => "SHUTDOWN_GUEST_OS"
  | reconfigure => "RECONFIGURE"

/-- The operation of a name in any case. -/
def ofName? (text : String) : Option Operation :=
  all.find? fun op => Ascii.alike op.name text

/-- The complaint about a name that no operation has. -/
def unknownText (text : String) : String :=
  "unknown operation: " ++ text

def json (op : Operation) : Json := .string op.name

def decoder : Json.Decoder Operation :=
  .enum (all.map fun op => (op.name, op))

end Operation

/-- How far a request has come. Requests are recorded as new; later states are set elsewhere. -/
inductive RequestStatus
  | new
  | inProgress
  | completed
  | failed
deriving DecidableEq

namespace RequestStatus

def all : List RequestStatus := [new, inProgress, completed, failed]

def name : RequestStatus → String
  | new => "NEW"
  | inProgress => "IN_PROGRESS"
  | completed => "COMPLETED"
  | failed => "FAILED"

def json (status : RequestStatus) : Json := .string status.name

def decoder : Json.Decoder RequestStatus :=
  .enum (all.map fun status => (status.name, status))

end RequestStatus

/-- How far the deployment of one machine has come. -/
inductive InstanceStatus
  | init
  | inProgress
  | deployed
  | failed
deriving DecidableEq

namespace InstanceStatus

def all : List InstanceStatus := [init, inProgress, deployed, failed]

def name : InstanceStatus → String
  | init => "INIT"
  | inProgress => "IN_PROGRESS"
  | deployed => "DEPLOYED"
  | failed => "FAILED"

def json (status : InstanceStatus) : Json := .string status.name

def decoder : Json.Decoder InstanceStatus :=
  .enum (all.map fun status => (status.name, status))

end InstanceStatus

end VmAdmission
