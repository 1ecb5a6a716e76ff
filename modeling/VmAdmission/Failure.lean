import VmAdmission.Inventory
import VmAdmission.Taxonomy
import VmAdmission.Time.Duration
import VmAdmission.Uuid

namespace VmAdmission

/-- What a database reports instead of an answer. -/
inductive DatabaseError
  | noRow
  | poolTimedOut
  | poolClosed
  | workerCrashed
  | unknownColumn (name : String)
  | unexpectedData (detail : String)
deriving DecidableEq

def DatabaseError.message : DatabaseError → String
  | noRow => "no rows returned by a query that expected to return at least one row"
  | poolTimedOut => "pool timed out while waiting for an open connection"
  | poolClosed => "attempted to acquire a connection on a closed pool"
  | workerCrashed => "attempted to communicate with a crashed background worker"
  | unknownColumn name => "no column found for name: " ++ name
  | unexpectedData detail => "encountered unexpected or invalid data: " ++ detail

inductive Conflict
  | noParent (id : Uuid)
  | duplicate (id : Uuid) (vmName : String)
  | stated (text : String)
deriving DecidableEq

def Conflict.message : Conflict → String
  | noParent id => "no parent request " ++ id.text
  | duplicate id vmName => "duplicate instance " ++ id.text ++ "/" ++ vmName
  | stated text => text

/-- The parts of the ledger that can be made to fail. -/
inductive FaultyPart
  | requestWrites
  | instanceWrites
  | instanceReads
deriving DecidableEq

def FaultyPart.word : FaultyPart → String
  | requestWrites => "request write"
  | instanceWrites => "instance write"
  | instanceReads => "instance read"

/-- Why the store could not be used. -/
inductive StoreOutage
  | injected (part : FaultyPart)
  | tooSlow (limit : Duration)
  | stated (text : String)
deriving DecidableEq

def StoreOutage.message : StoreOutage → String
  | injected part => "injected " ++ part.word ++ " failure"
  | tooSlow limit => "store call exceeded " ++ limit.text
  | stated text => text

inductive StoreError
  | notFound
  | database (error : DatabaseError)
  | constraint (conflict : Conflict)
  | unavailable (outage : StoreOutage)
deriving DecidableEq

namespace StoreError

/-- The failure of a call whose query ended in a database error; a missing row is no defect of the
database. -/
def ofDatabase : DatabaseError → StoreError
  | .noRow => notFound
  | error => database error

def message : StoreError → String
  | notFound => "record not found"
  | database error => "database error: " ++ error.message
  | constraint conflict => "constraint violation: " ++ conflict.message
  | unavailable outage => "store unavailable: " ++ outage.message

end StoreError

inductive LookupError
  | timeout
  | notFound (what : String)
  | failed (why : String)
deriving DecidableEq

def LookupError.message : LookupError → String
  | timeout => "lookup timed out"
  | notFound what => what ++ " not found"
  | failed why => why

/-- The services that are asked before a request is recorded. -/
inductive Service
  | imageManager
  | infraMonitor
  | vmMonitor
deriving DecidableEq

def Service.name : Service → String
  | imageManager => "image-manager"
  | infraMonitor => "infra-monitor"
  | vmMonitor => "vm-monitor"

/-- What a request asked for and does not exist. -/
inductive Missing
  | vm (id : String)
  | request (id : Uuid)
  | stated (text : String)
deriving DecidableEq

def Missing.message : Missing → String
  | vm id => "VM " ++ id ++ " not found"
  | request id => "VM request " ++ id.text ++ " not found"
  | stated text => text

/-- Why a request is refused as it stands. -/
inductive Rejection
  | tooManyVms (count : Int64) (limit : UInt32)
  | fieldRequired (name : String)
  | unknownImage (id : String)
  | unknownPlace (kind : PlaceKind) (name : String)
  | unhealthyPlace (kind : PlaceKind) (name : String)
  | poweredOff
  | vmNotValidated
  | namelessVm (id : String)
  | stated (text : String)
deriving DecidableEq

def Rejection.message : Rejection → String
  | tooManyVms count limit =>
    "numberOfVms " ++ toString count ++ " exceeds the limit of " ++ toString limit
  | fieldRequired name => name ++ " is required"
  | unknownImage id => "image " ++ id ++ " not found"
  | unknownPlace kind name => kind.word ++ " " ++ name ++ " not found"
  | unhealthyPlace kind name => kind.word ++ " " ++ name ++ " is not healthy"
  | poweredOff => "VM is powered off and cannot be reconfigured"
  | vmNotValidated => "VM validation failed"
  | namelessVm id => "vmId " ++ Quoted.quote id ++ " does not name a vm"
  | stated text => text

/-- Why a service was of no help. -/
inductive ServiceOutage
  | lookupFailed (service : Service) (error : LookupError)
  | noAnswer (service : Service) (limit : Duration)
  | stated (text : String)
deriving DecidableEq

def ServiceOutage.message : ServiceOutage → String
  | lookupFailed service error => service.name ++ " lookup failed: " ++ error.message
  | noAnswer service limit => service.name ++ " did not answer within " ++ limit.text
  | stated text => text

/-- A use of the service that its callers do not make. -/
inductive Misuse
  | deployWithoutOrder
  | stated (text : String)
deriving DecidableEq

def Misuse.message : Misuse → String
  | deployWithoutOrder => "deploy requests carry a deploy payload"
  | stated text => text

/-- The failure of a request. -/
inductive RequestError
  | notFound (what : Missing)
  | validationFailed (why : Rejection)
  | dependencyUnavailable (why : ServiceOutage)
  | malformedInput (error : Json.Error)
  | storage (error : StoreError)
  | internal (why : Misuse)

namespace RequestError

def message : RequestError → String
  | notFound what => what.message
  | validationFailed why => why.message
  | dependencyUnavailable why => why.message
  | malformedInput error => "malformed request metadata: " ++ error.message
  | storage error => "storage failure: " ++ error.message
  | internal why => why.message

def code : RequestError → ErrorCode
  | notFound _ => .recordNotFound
  | validationFailed _ => .validationError
  | dependencyUnavailable _ => .internalError
  | malformedInput _ => .invalidJson
  | storage .notFound => .recordNotFound
  | storage _ => .internalError
  | internal _ => .internalError

def report (error : RequestError) : ErrorReport :=
  .of error.code error.message

end RequestError

end VmAdmission
