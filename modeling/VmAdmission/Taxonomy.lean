import VmAdmission.Operation

namespace VmAdmission

/-- The classes that failures are answered in. -/
inductive StatusClass
  | badRequest
  | unauthorized
  | forbidden
  | notFound
  | conflict
  | unprocessable
  | internal
deriving DecidableEq

namespace StatusClass

def httpStatus : StatusClass → Nat
  | badRequest => 400
  | unauthorized => 401
  | forbidden => 403
  | notFound => 404
  | conflict => 409
  | unprocessable => 422
  | internal => 500

/-- The end of the name of a typed answer in the class. -/
def shapeEnd : StatusClass → String
  | badRequest => "BadRequest"
  | unauthorized => "Unauthorized"
  | forbidden => "Forbidden"
  | notFound => "NotFound"
  | conflict => "Conflict"
  | unprocessable => "UnprocessableEntity"
  | internal => "InternalServerError"

end StatusClass

/-- The codes that failures are reported under. -/
inductive ErrorCode
  | invalidJson
  | recordNotFound
  | statusConflict
  | validationError
  | unauthorized
  | forbidden
  | internalError
deriving DecidableEq

namespace ErrorCode

def all : List ErrorCode :=
  [invalidJson, recordNotFound, statusConflict, validationError, unauthorized, forbidden,
    internalError]

def name : ErrorCode → String
  | invalidJson => "INVALID_JSON"
  | recordNotFound => "RECORD_NOT_FOUND"
  | statusConflict => "STATUS_CONFLICT"
  | validationError => "VALIDATION_ERROR"
  | unauthorized => "UNAUTHORIZED"
  | forbidden => "FORBIDDEN"
  | internalError => "INTERNAL_ERROR"

/-- The code of a name, which must be given exactly. -/
def ofName? (text : String) : Option ErrorCode :=
  all.find? fun code => code.name == text

/-- The code of a name; an unknown name stands for an internal error. -/
def resolve (text : String) : ErrorCode :=
  (ofName? text).getD internalError

def statusClass : ErrorCode → StatusClass
  | invalidJson => .badRequest
  | recordNotFound => .notFound
  | statusConflict => .conflict
  | validationError => .unprocessable
  | unauthorized => .unauthorized
  | forbidden => .forbidden
  | internalError => .internal

def json (code : ErrorCode) : Json := .string code.name

def decoder : Json.Decoder ErrorCode :=
  .enum (all.map fun code => (code.name, code))

end ErrorCode

/-- The operations of the interface: those on machines, and the two that read requests back. -/
inductive ApiOperation
  | lifecycle (op : Operation)
  | getRequest
  | listRequests
deriving DecidableEq

namespace ApiOperation

def all : List ApiOperation :=
  Operation.all.map lifecycle ++ [getRequest, listRequests]

def name : ApiOperation → String
  | lifecycle op => op.name
  | getRequest => "GET_REQUEST"
  | listRequests => "LIST_REQUESTS"

/-- The operation of a name in any case. -/
def ofName? (text : String) : Option ApiOperation :=
  if Ascii.alike text getRequest.name then some getRequest
  else if Ascii.alike text listRequests.name then some listRequests
  else (Operation.ofName? text).map lifecycle

/-- The classes that the operation has a typed answer for. -/
def typedClasses : ApiOperation → List StatusClass
  | lifecycle .deploy => [.badRequest, .internal]
  | lifecycle .refresh => [.notFound, .internal]
  | lifecycle _ => [.badRequest, .notFound, .internal]
  | getRequest => [.notFound, .internal]
  | listRequests => [.notFound, .internal]

/-- The beginning of the names of the operation's typed answers. -/
def shapeStart : ApiOperation → String
  | lifecycle .deploy => "DeployVm"
  | lifecycle .powerOn => "VmPowerOn"
  | lifecycle .powerOff => "VmPowerOff"
  | lifecycle .delete => "VmDelete"
  | lifecycle .reset => "VmReset"
  | lifecycle .refresh => "VmRefresh"
  | lifecycle .restartGuestOs => "VmRestartGuestOs"
  | lifecycle .shutdownGuestOs => "VmShutdownGuestOs"
  | lifecycle .reconfigure => "EditVm"
  | getRequest => "GetVmRequest"
  | listRequests => "ListVmRequests"

end ApiOperation

/-- The kind of answer that a failure is given in. -/
inductive ResponseShape
  | typed (operation : ApiOperation) (statusClass : StatusClass)
  | generic (statusClass : StatusClass)
deriving DecidableEq

namespace ResponseShape

def statusClass : ResponseShape → StatusClass
  | typed _ statusClass => statusClass
  | generic statusClass => statusClass

def name : ResponseShape → String
  | typed operation statusClass => operation.shapeStart ++ statusClass.shapeEnd
  | generic _ => "ErrorResponse"

end ResponseShape

/-- A failure as it is reported: the name of a code, which may be unknown, and a message. -/
structure ErrorReport where
  code : String
  message : String
deriving DecidableEq

namespace ErrorReport

def of (code : ErrorCode) (message : String) : ErrorReport :=
  ⟨code.name, message⟩

/-- The report on one line. -/
def text (report : ErrorReport) : String :=
  report.code ++ ": " ++ report.message

def json (report : ErrorReport) : Json :=
  .object [("errorCode", .string report.code), ("message", .string report.message)]

structure Draft where
  code : Option String := none
  message : Option String := none

def shape : Json.Decoder.Shape Draft ErrorReport where
  name := "ApiResponseError"
  fields := [
    .of "errorCode" true (·.code) (fun draft x => { draft with code := some x }) .string,
    .of "message" true (·.message) (fun draft x => { draft with message := some x }) .string]
  empty := {}
  build draft := do
    let some code := draft.code | throw "errorCode"
    let some message := draft.message | throw "message"
    return { code, message }

def decoder : Json.Decoder ErrorReport := .record shape

end ErrorReport

/-- The body of every answer to a failure. -/
structure ErrorBody where
  code : ErrorCode
  httpStatus : Nat
  message : String
deriving DecidableEq

/-- How a failure is answered. -/
structure MappedError where
  shape : ResponseShape
  body : ErrorBody
deriving DecidableEq

def MappedError.httpStatus (mapped : MappedError) : Nat :=
  mapped.shape.statusClass.httpStatus

namespace ErrorReport

def body (report : ErrorReport) : ErrorBody :=
  let code := ErrorCode.resolve report.code
  ⟨code, code.statusClass.httpStatus, report.message⟩

/-- The class that an operation answers a code in: that of the code if the operation has a typed
answer for it, and else that of internal errors. -/
def typedClass (operation : ApiOperation) (code : ErrorCode) : StatusClass :=
  if code.statusClass ∈ operation.typedClasses then code.statusClass else .internal

def mapTyped (report : ErrorReport) (operation : ApiOperation) : MappedError :=
  ⟨.typed operation (typedClass operation (ErrorCode.resolve report.code)), report.body⟩

/-- The answer outside of any operation. -/
def mapUntyped (report : ErrorReport) : MappedError :=
  ⟨.generic (ErrorCode.resolve report.code).statusClass, report.body⟩

/-- The answer of an operation, or outside of any when it is not known. -/
def map (report : ErrorReport) (operation : Option ApiOperation) : MappedError :=
  match operation with
  | some operation => report.mapTyped operation
  | none => report.mapUntyped

/-- The answer of the operation of a name. -/
def mapNamed (report : ErrorReport) (operation : String) : MappedError :=
  report.map (ApiOperation.ofName? operation)

end ErrorReport

end VmAdmission
