import VmAdmission.Http.Message
import VmAdmission.Net.Percent
import VmAdmission.Settings

namespace VmAdmission.Http

structure App where
  settings : Settings
  services : Services

structure Served where
  response : Response
  lookups : List Lookup
  store : Store

def bearerToken? (request : Request) : Option String := do
  let value ← request.header? "authorization"
  let scheme := "Bearer "
  if value.startsWith scheme then
    let token := trimBlanks (String.ofList (value.toList.drop scheme.length))
    if token = "" then none else some token
  else none

def maxScopeLength : Nat := 50

/-- An id of the scope; a header that is missing or no text stands for none. -/
def scopeId (request : Request) (name : String) : Except ErrorReport String :=
  let value := trimBlanks ((request.header? name).getD "")
  if maxScopeLength < value.length then
    .error (.of .invalidJson
      (name ++ " longer than " ++ toString maxScopeLength ++ " characters"))
  else .ok value

def requestScope (request : Request) : Except ErrorReport Scope := do
  let workspaceId ← scopeId request "x-workspace-id"
  let datacenterId ← scopeId request "x-datacenter-id"
  return ⟨workspaceId, datacenterId⟩

/-- A parameter of the path without its escapes. -/
def parameter (name raw : String) : Except Response String :=
  match Utf8.decode? (Percent.decode (Utf8.encode raw)) with
  | some text => .ok text
  | none => .error (.plain 400 ("Invalid URL: Invalid UTF-8 in `" ++ name ++ "`"))

def maxBodySize : Nat := 2097152

def readBody {α : Type} (request : Request) (operation : Operation) (decoder : Json.Decoder α) :
    Except Response α :=
  if maxBodySize < request.body.length then
    .error (.plain 413 "Failed to buffer the request body: length limit exceeded")
  else
    match Json.decode decoder (Utf8.symbols request.body) with
    | .ok value => .ok value
    | .error e =>
      .error (.ofFailure (.of .invalidJson ("invalid request body: " ++ e.message))
        (some (.lifecycle operation)))

/-- The characters that a header must not have. -/
def isHeaderBreak (c : Char) : Bool :=
  Percent.control c && c ≠ '\t'

def crashed : Response :=
  .ofFailure (.of .internalError "internal server error") none

def halted (operation : ApiOperation) : Halt → Response
  | .refused error => .ofFailure error.report (some operation)
  | .crashed => crashed

/-- The response to a recorded request: where it can be found from now on. -/
def accepted (settings : Settings) (recorded : Recorded) : Response :=
  let location := settings.requestBasePath ++ recorded.request.id.text
  if location.toList.any isHeaderBreak then .plain 500 "failed to parse header value"
  else { status := 202, content := .accepted, location := some location }

namespace App

def submitted (app : App) (operation : Operation) (submission : Submission Recorded)
    (store : Store) : Served :=
  let attempt := submission.run app.settings.pipeline.admission.storeTimeout store
  ⟨match attempt.result with
    | .ok recorded => accepted app.settings recorded
    | .error halt => halted (.lifecycle operation) halt, attempt.lookups, attempt.store⟩

def answered {α : Type} (app : App) (operation : ApiOperation) (content : α → Content)
    (dialogue : Dialogue α) (store : Store) : Served :=
  let finished := dialogue.run app.settings.pipeline.admission.storeTimeout store
  ⟨match finished.result with
    | .ok value => { status := 200, content := content value }
    | .error error => .ofFailure error.report (some operation), [], finished.store⟩

/-- A response that nothing was done for. -/
def respond (response : Response) (store : Store) : Served :=
  ⟨response, [], store⟩

def badScope (operation : Operation) (report : ErrorReport) : Response :=
  .ofFailure report (some (.lifecycle operation))

def deploy (app : App) (request : Request) : Except Response (Submission Recorded) := do
  let order ← readBody request .deploy DeployOrder.decoder
  let scope ← (requestScope request).mapError (badScope .deploy)
  return app.settings.pipeline.deploy app.services order scope

def operate (app : App) (request : Request) (operation : Operation) (rawId : String) :
    Except Response (Submission Recorded) := do
  let vmId ← parameter "vm_id" rawId
  let spec ← if operation = .reconfigure then some <$> readBody request operation Json.tree
    else pure none
  let scope ← (requestScope request).mapError (badScope operation)
  return app.settings.pipeline.submit app.services operation ⟨vmId, spec⟩ scope

/-- Answers with what is to be done, or with why nothing is. -/
def carryOut (app : App) (operation : Operation)
    (submission : Except Response (Submission Recorded)) (store : Store) : Served :=
  match submission with
  | .ok submission => app.submitted operation submission store
  | .error response => respond response store

/-- Answers a request for one recorded request. An id that no request can have is one that is not
found. -/
def find (app : App) (rawId : String) (store : Store) : Served :=
  match parameter "request_id" rawId with
  | .error response => respond response store
  | .ok text =>
    match Uuid.parse text with
    | .ok id => app.answered .getRequest .detail (findRequest id) store
    | .error _ =>
      respond (.ofFailure (.of .recordNotFound "VM request not found") (some .getRequest)) store

/-- Answers a request whose method is served at its route. -/
def dispatch (app : App) (request : Request) (store : Store) : Route → Served
  | .health => respond { status := 200, content := .health } store
  | .machines => app.carryOut .deploy (app.deploy request) store
  | .machine rawId =>
    let operation : Operation := if request.method = .patch then .reconfigure else .delete
    app.carryOut operation (app.operate request operation rawId) store
  | .action operation rawId => app.carryOut operation (app.operate request operation rawId) store
  | .requests => app.answered .listRequests .listing VmAdmission.listRequests store
  | .request rawId => app.find rawId store

def unauthorized : Response :=
  .ofFailure (.of .unauthorized "missing bearer token") none

/-- Answers a request at a route. The token is asked for first. A method that is not served is
answered with those that are. -/
def atRoute (app : App) (request : Request) (route : Route) (store : Store) : Served :=
  let welcome := route = .health ∨ (bearerToken? request).isSome
  if request.method ∈ route.methods then
    if welcome then app.dispatch request store route else respond unauthorized store
  else
    let refusal := if welcome then { status := 405 } else unauthorized
    respond { refusal with allow := some route.methods } store

/-- Answers a request. A request for the head alone gets no body. -/
def handle (app : App) (request : Request) (store : Store) : Served :=
  match Route.ofTarget? request.target with
  | none => respond { status := 404 } store
  | some route =>
    let served := app.atRoute request route store
    { served with
      response := { served.response with headOnly := request.method = .head } }

end App

end VmAdmission.Http
