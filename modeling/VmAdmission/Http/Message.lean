import VmAdmission.Http.Route
import VmAdmission.Query
import VmAdmission.Text.Blank

namespace VmAdmission.Http

structure Request where
  method : Method
  /-- The path, with query and fragment if there are any. -/
  target : String
  /-- The headers in order, each a name and the bytes of its value. -/
  headers : List (String × List UInt8)
  body : List UInt8

/-- The byte may stand in a header that is read as text. -/
def isVisible (b : UInt8) : Bool :=
  b = 0x09 || (0x20 ≤ b && b < 0x7F)

/-- The first header of a name, if it can be read as text. -/
def Request.header? (request : Request) (name : String) : Option String := do
  let (_, value) ← request.headers.find? fun h => Ascii.alike h.1 name
  if value.all isVisible then some (String.ofList (value.map fun b => Char.ofNat b.toNat))
  else none

/-- What a response says. -/
inductive Content
  | empty
  | accepted
  | health
  | detail (recorded : Recorded)
  | listing (listing : Listing)
  | failure (mapped : MappedError)
  | plain (text : String)

inductive ContentType
  | json
  | text
deriving DecidableEq

def ContentType.name : ContentType → String
  | json => "application/json"
  | text => "text/plain; charset=utf-8"

namespace Content

def contentType? : Content → Option ContentType
  | empty => none
  | plain _ => some .text
  | _ => some .json

/-- The body of the answer to a failure. -/
def failureJson (mapped : MappedError) : Json :=
  .object [
    ("type", .string mapped.shape.name),
    ("errorCode", mapped.body.code.json),
    ("httpStatusCode", .ofUInt64 mapped.body.httpStatus.toUInt64),
    ("message", .string mapped.body.message)]

def text : Content → String
  | empty => ""
  | accepted => (Json.object []).text
  | health => (Json.object [("status", .string "ok")]).text
  | detail recorded => recorded.apiJson.text
  | listing all => all.apiJson.text
  | failure mapped => (failureJson mapped).text
  | plain words => words

end Content

structure Response where
  status : Nat
  content : Content := .empty
  location : Option String := none
  /-- The methods that would have been served. -/
  allow : Option (List Method) := none
  /-- The body is not sent. -/
  headOnly : Bool := false

namespace Response

def ofFailure (report : ErrorReport) (operation : Option ApiOperation) : Response :=
  let mapped := report.map operation
  { status := mapped.httpStatus, content := .failure mapped }

/-- The response to a request that says nothing the interface could answer. -/
def plain (status : Nat) (text : String) : Response :=
  { status, content := .plain text }

def body (response : Response) : String :=
  if response.headOnly then "" else response.content.text

end Response

end VmAdmission.Http
