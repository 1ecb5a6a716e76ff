import VmAdmission.Proofs.Crashes
import VmAdmission.Proofs.FailureAnswers
import VmAdmission.Proofs.Http.Tokens

namespace VmAdmission.Http

/-- The response tells that the operation succeeded. -/
def Response.Succeeds (response : Response) : ApiOperation → Prop
  | .lifecycle _ => response.status = 202 ∧ response.content = .accepted
  | .getRequest => response.status = 200 ∧ ∃ recorded, response.content = .detail recorded
  | .listRequests => response.status = 200 ∧ ∃ listing, response.content = .listing listing

/-- The response tells in what declared way the operation failed: in JSON, with the name and the
status of one of its typed answers, the name of a code, the status of the class of the code, and a
message. The answer is the one for the class of the code, or the one for internal failures. -/
def Response.Fails (response : Response) (operation : ApiOperation) : Prop :=
  ∃ shown ∈ operation.typedClasses, ∃ code ∈ ErrorCode.all, ∃ message,
    (shown = code.statusClass ∨ shown = .internal) ∧
    response.status = shown.httpStatus ∧ response.content.contentType? = some .json ∧
    response.content.text = (Json.object [
      ("type", .string (operation.shapeStart ++ shown.shapeEnd)),
      ("errorCode", .string code.name),
      ("httpStatusCode", .ofUInt64 code.statusClass.httpStatus.toUInt64),
      ("message", .string message)]).text

theorem fails_ofFailure (report : ErrorReport) (operation : ApiOperation) :
    (Response.ofFailure report (some operation)).Fails operation := by
  let code := ErrorCode.resolve report.code
  obtain ⟨declared, either⟩ := ErrorReport.typedClass_cases operation code
  exact ⟨_, declared, code, mem_errorCodes code, report.message, either, rfl, rfl, rfl⟩

/-- The parameter that a route takes from the path, with its name. -/
def Route.parameter? : Route → Option (String × String)
  | machine rawId => some ("vm_id", rawId)
  | action _ rawId => some ("vm_id", rawId)
  | request rawId => some ("request_id", rawId)
  | _ => none

theorem Route.Operates.parameter? {route : Route} {method : Method} {operation : Operation}
    {rawId : String} (operates : route.Operates method operation rawId) :
    route.parameter? = some ("vm_id", rawId) := by
  cases operates <;> rfl

/-- The parameter of a name, without its escapes, is no UTF-8. -/
def Route.Garbled (route : Route) (name : String) : Prop :=
  ∃ raw, route.parameter? = some (name, raw) ∧
    Utf8.decode? (Percent.decode (Utf8.encode raw)) = none

/-- The operation reads a body, and this is too large. -/
def Request.Oversized (request : Request) (operation : ApiOperation) : Prop :=
  operation ∈ [.lifecycle .deploy, .lifecycle .reconfigure] ∧ maxBodySize < request.body.length

theorem parameter_garbled {name raw : String}
    (garbled : Utf8.decode? (Percent.decode (Utf8.encode raw)) = none) :
    parameter name raw =
      .error (.plain 400 ("Invalid URL: Invalid UTF-8 in `" ++ name ++ "`")) := by
  simp only [parameter, garbled]

theorem parameter_legible {route : Route} {name raw : String} (legible : ¬ route.Garbled name)
    (takes : route.parameter? = some (name, raw)) : ∃ text, parameter name raw = .ok text := by
  cases decoded : Utf8.decode? (Percent.decode (Utf8.encode raw)) with
  | none => exact absurd ⟨raw, takes, decoded⟩ legible
  | some text => exact ⟨text, by simp only [parameter, decoded]⟩

section

variable {α : Type} {request : Request} {operation : Operation} {decoder : Json.Decoder α}

theorem readBody_oversized (large : maxBodySize < request.body.length) :
    readBody request operation decoder =
      .error (.plain 413 "Failed to buffer the request body: length limit exceeded") :=
  if_pos large

theorem readBody_fails {response : Response} (small : ¬ maxBodySize < request.body.length)
    (failed : readBody request operation decoder = .error response) :
    response.Fails (.lifecycle operation) := by
  rw [readBody, if_neg small] at failed
  split at failed
  · cases failed
  · cases failed
    exact fails_ofFailure _ _

theorem badScope_fails {scope : Except ErrorReport Scope} {response : Response}
    (failed : scope.mapError (App.badScope operation) = .error response) :
    response.Fails (.lifecycle operation) := by
  cases scope with
  | ok => cases failed
  | error report =>
    cases failed
    exact fails_ofFailure _ _

end

namespace App

variable {app : App} {request : Request} {store : Store} {route : Route} {operation : Operation}

theorem deploy_fails {response : Response} (small : ¬ request.Oversized (.lifecycle .deploy))
    (failed : app.deploy request = .error response) : response.Fails (.lifecycle .deploy) := by
  have fits : ¬ maxBodySize < request.body.length := fun large => small ⟨by simp, large⟩
  let P (response : Response) : Prop := response.Fails (.lifecycle .deploy)
  refine bind_error (P := P) (readBody_fails fits) (fun order failed => ?_) failed
  refine bind_error (P := P) badScope_fails (fun scope failed => ?_) failed
  cases failed

theorem spec?_fails {response : Response} (small : ¬ request.Oversized (.lifecycle operation))
    (failed : spec? request operation = .error response) :
    response.Fails (.lifecycle operation) := by
  unfold spec? at failed
  split at failed
  · rename_i reconfigures
    have fits : ¬ maxBodySize < request.body.length :=
      fun large => small ⟨by simp [reconfigures], large⟩
    cases body : readBody request operation Json.tree with
    | ok spec =>
      rw [body] at failed
      cases failed
    | error other =>
      rw [body] at failed
      cases failed
      exact readBody_fails fits body
  · cases failed

theorem operate_fails {rawId vmId : String} {response : Response}
    (named : parameter "vm_id" rawId = .ok vmId)
    (small : ¬ request.Oversized (.lifecycle operation))
    (failed : app.operate request operation rawId = .error response) :
    response.Fails (.lifecycle operation) := by
  rw [operate_eq, named] at failed
  let P (response : Response) : Prop := response.Fails (.lifecycle operation)
  refine bind_error (P := P) (spec?_fails small) (fun spec failed => ?_) failed
  refine bind_error (P := P) badScope_fails (fun scope failed => ?_) failed
  cases failed

/-- What a submission comes to is told, if no lookup crashes; a request that was recorded is not, if
the place where it could be found cannot be written in a header. -/
inductive Told (app : App) (operation : ApiOperation) (response : Response) : Prop
  | succeeds (succeeds : response.Succeeds operation)
  | fails (fails : response.Fails operation)
  | unlocated (lifecycle : ∃ op, operation = .lifecycle op)
      (broken : app.settings.requestBasePath.toList.any isHeaderBreak)
      (content : response.content = .plain "failed to parse header value")
      (status : response.status = 500)

theorem submitted_told {submission : Submission Recorded}
    (calm : submission.check.result ≠ .error .crashed) :
    app.Told (.lifecycle operation) (app.submitted operation submission store).response := by
  simp only [submitted]
  cases result : (submission.run app.settings.pipeline.admission.storeTimeout store).result with
  | ok recorded =>
    cases broken : app.settings.requestBasePath.toList.any isHeaderBreak with
    | true =>
      simp only [accepted_broken broken]
      exact .unlocated ⟨operation, rfl⟩ broken rfl rfl
    | false =>
      simp only [accepted_unbroken broken]
      exact .succeeds ⟨rfl, rfl⟩
  | error halt =>
    cases halt with
    | refused error => exact .fails (fails_ofFailure _ _)
    | crashed => exact absurd result (Submission.run_ne_crashed calm)

theorem answered_told {α : Type} {asked : ApiOperation} {content : α → Content}
    {dialogue : Dialogue α}
    (succeeds : ∀ value, Response.Succeeds { status := 200, content := content value } asked) :
    app.Told asked (app.answered asked content dialogue store).response := by
  rw [answered_response]
  cases (dialogue.effect app.settings.pipeline.admission.storeTimeout store).1 with
  | ok value => exact .succeeds (succeeds value)
  | error error => exact .fails (fails_ofFailure _ _)

theorem deploy_told (calm : app.services.Calm) (small : ¬ request.Oversized (.lifecycle .deploy)) :
    app.Told (.lifecycle .deploy)
      (app.carryOut .deploy (app.deploy request) store).response := by
  cases read : app.deploy request with
  | error response => exact .fails (deploy_fails small read)
  | ok submission =>
    obtain ⟨order, scope, -, -, rfl⟩ := deploy_ok read
    exact submitted_told (PipelineConfig.deploy_ne_crashed calm order scope)

theorem operate_told (calm : app.services.Calm) {rawId vmId : String}
    (named : parameter "vm_id" rawId = .ok vmId)
    (small : ¬ request.Oversized (.lifecycle operation)) :
    app.Told (.lifecycle operation)
      (app.carryOut operation (app.operate request operation rawId) store).response := by
  cases read : app.operate request operation rawId with
  | error response => exact .fails (operate_fails named small read)
  | ok submission =>
    obtain ⟨vmId, spec, scope, -, -, -, rfl⟩ := operate_ok read
    exact submitted_told (PipelineConfig.submit_ne_crashed calm operation ⟨vmId, spec⟩ scope)

theorem find_told {rawId text : String} (named : parameter "request_id" rawId = .ok text) :
    app.Told .getRequest (app.find rawId store).response := by
  simp only [find, named]
  cases Uuid.parse text with
  | error => exact .fails (fails_ofFailure _ _)
  | ok id => exact answered_told fun recorded => ⟨rfl, recorded, rfl⟩

/-- What is asked for is told, unless the request is turned away before. -/
theorem dispatch_told {asked : ApiOperation} (serves : route.Serves request.method asked)
    (calm : app.services.Calm) (legible : ∀ name, ¬ route.Garbled name)
    (small : ¬ request.Oversized asked) :
    app.Told asked (app.dispatch request store route).response := by
  cases asked with
  | lifecycle operation =>
    obtain ⟨rfl, -, rfl⟩ | ⟨rawId, operates⟩ := serves.deploy_or_operate
    · exact deploy_told calm small
    · obtain ⟨vmId, named⟩ := parameter_legible (legible _) operates.parameter?
      rw [dispatch_operate operates]
      exact operate_told calm named small
  | getRequest =>
    obtain ⟨rawId, rfl⟩ := serves.of_getRequest
    obtain ⟨text, named⟩ :=
      parameter_legible (legible _) (rfl : (Route.request rawId).parameter? = _)
    exact find_told named
  | listRequests =>
    cases serves.of_listRequests
    exact answered_told fun listing => ⟨rfl, listing, rfl⟩

theorem dispatch_garbled {name : String} (garbled : route.Garbled name) :
    app.dispatch request store route =
      respond (.plain 400 ("Invalid URL: Invalid UTF-8 in `" ++ name ++ "`")) store := by
  obtain ⟨raw, takes, illegible⟩ := garbled
  cases route with
  | machine | action =>
    cases takes
    simp only [dispatch, operate_eq, parameter_garbled illegible]
    rfl
  | request =>
    cases takes
    simp only [dispatch, find, parameter_garbled illegible]
  | health | machines | requests => cases takes

theorem dispatch_oversized {asked : ApiOperation}
    (found : Route.ofTarget? request.target = some route)
    (serves : route.Serves request.method asked) (legible : ∀ name, ¬ route.Garbled name)
    (large : request.Oversized asked) :
    app.dispatch request store route =
      respond (.plain 413 "Failed to buffer the request body: length limit exceeded") store := by
  obtain ⟨reads, large⟩ := large
  obtain ⟨operation, rfl, either⟩ : ∃ operation, asked = .lifecycle operation ∧
      (operation = .deploy ∨ operation = .reconfigure) := by
    rcases List.mem_pair.mp reads with rfl | rfl
    · exact ⟨_, rfl, .inl rfl⟩
    · exact ⟨_, rfl, .inr rfl⟩
  obtain ⟨rfl, -, rfl⟩ | ⟨rawId, operates⟩ := serves.deploy_or_operate
  · simp only [dispatch, deploy, readBody_oversized large]
    rfl
  · have reconfigures := either.resolve_left (operates.ne_deploy found)
    obtain ⟨vmId, named⟩ := parameter_legible (legible _) operates.parameter?
    have body : spec? request operation =
        .error (.plain 413 "Failed to buffer the request body: length limit exceeded") := by
      rw [spec?, if_pos reconfigures, readBody_oversized large]
      rfl
    rw [dispatch_operate operates, operate_eq, named, body]
    rfl

theorem Told.sent {asked : ApiOperation} {served : Served} (told : app.Told asked served.response)
    (headOnly : Bool) : app.Told asked (served.sent headOnly).response := by
  cases told with
  | succeeds succeeds => exact .succeeds (by cases asked <;> exact succeeds)
  | fails fails => exact .fails fails
  | unlocated lifecycle broken content status => exact .unlocated lifecycle broken content status

/-- Whatever is asked for with a token is told to have succeeded or to have failed in a declared way,
unless a lookup crashes or the base of the locations does not fit into a header. The only requests
that get a plain text instead are those with a parameter that is no UTF-8 and those with a body that
is too large; for them nothing is looked up and nothing changes. -/
theorem failures_told (app : App) (request : Request) (store : Store) {route : Route}
    {asked : ApiOperation} (found : Route.ofTarget? request.target = some route)
    (serves : route.Serves request.method asked) (token : request.ShowsToken)
    (calm : app.services.Calm) :
    let served := app.handle request store
    let response := served.response
    response.headOnly = (request.method = .head) ∧
    ((∀ name, ¬ route.Garbled name) → ¬ request.Oversized asked → app.Told asked response) ∧
    (∀ name, route.Garbled name →
      response.status = 400 ∧
        response.content = .plain ("Invalid URL: Invalid UTF-8 in `" ++ name ++ "`") ∧
        served.lookups = [] ∧ served.store = store) ∧
    ((∀ name, ¬ route.Garbled name) → request.Oversized asked →
      response.status = 413 ∧
        response.content = .plain "Failed to buffer the request body: length limit exceeded" ∧
        served.lookups = [] ∧ served.store = store) := by
  intro served response
  have passed : served = (app.dispatch request store route).sent (request.method = .head) :=
    handle_served found serves.served.2 (bearerToken?_isSome_iff.mpr token)
  refine ⟨?_, fun legible small => ?_, fun name garbled => ?_, fun legible large => ?_⟩
  · simp only [response, passed, Served.sent, decide_eq_true_eq]
  · simp only [response, passed]
    exact (dispatch_told serves calm legible small).sent _
  · simp only [response, passed, dispatch_garbled garbled]
    exact ⟨rfl, rfl, rfl, rfl⟩
  · simp only [response, passed, dispatch_oversized found serves legible large]
    exact ⟨rfl, rfl, rfl, rfl⟩

/-- The deletion of a machine that the monitor does not know, and a search for an id that is no
UTF-8. -/
theorem failures_told_unknown :
    let app := App.inMemory { validation := { enabled := true } }
      (.uniform .none (.failure (.notFound "it")))
    let store : Store := { stamps := Stamp.numbered }
    let delete : Request :=
      ⟨.delete, "/virtualization/v1beta1/virtual-machines/vm-1", [tokenHeader], []⟩
    let search : Request :=
      ⟨.get, "/virtualization/v1beta1/virtual-machines-request/%FF", [tokenHeader], []⟩
    (app.handle delete store).response.status = 404 ∧
      (app.handle delete store).response.Fails (.lifecycle .delete) ∧
      (app.handle search store).response.content =
        .plain "Invalid URL: Invalid UTF-8 in `request_id`" := by
  intro app store delete search
  have found : Route.ofTarget? delete.target = some (.machine "vm-1") := by decide +kernel
  have alsoFound : Route.ofTarget? search.target = some (.request "%FF") := by decide +kernel
  have shown : delete.ShowsToken := bearerToken?_isSome_iff.mp (by decide +kernel)
  have alsoShown : search.ShowsToken := bearerToken?_isSome_iff.mp (by decide +kernel)
  have calm : app.services.Calm := ⟨nofun, nofun, nofun, nofun⟩
  have legible (name : String) : ¬ (Route.machine "vm-1").Garbled name := by
    rintro ⟨raw, takes, garbled⟩
    cases takes
    exact absurd garbled (by decide +kernel)
  have small : ¬ delete.Oversized (.lifecycle .delete) := fun large => absurd large.1 (by decide)
  have garbled : (Route.request "%FF").Garbled "request_id" := ⟨"%FF", rfl, by decide +kernel⟩
  have status : (app.handle delete store).response.status = 404 := by decide +kernel
  obtain ⟨-, told, -⟩ := failures_told app delete store found (.operate (.delete _)) shown calm
  obtain ⟨-, -, plain, -⟩ := failures_told app search store alsoFound
    (.find _ (List.mem_cons_self)) alsoShown calm
  refine ⟨status, ?_, (plain _ garbled).2.1⟩
  cases told legible small with
  | succeeds succeeds => cases status.symm.trans succeeds.1
  | fails fails => exact fails
  | unlocated _ _ _ internal => cases status.symm.trans internal

/-- Not all failures are told in a declared way: an id that is no UTF-8 is answered in plain text. -/
theorem failures_not_told :
    ¬ ∀ (app : App) (request : Request) (store : Store) (route : Route) (asked : ApiOperation),
      StoreReach Stamp.numbered store → Route.ofTarget? request.target = some route →
      route.Serves request.method asked → request.ShowsToken → app.services.Calm →
      (app.handle request store).response.Succeeds asked ∨
        (app.handle request store).response.Fails asked := by
  intro told
  let app := App.inMemory {} (.uniform .none (.failure (.notFound "it")))
  let store : Store := { stamps := Stamp.numbered }
  let search : Request :=
    ⟨.get, "/virtualization/v1beta1/virtual-machines-request/%FF", [tokenHeader], []⟩
  have found : Route.ofTarget? search.target = some (.request "%FF") := by decide +kernel
  have shown : search.ShowsToken := bearerToken?_isSome_iff.mp (by decide +kernel)
  have calm : app.services.Calm := ⟨nofun, nofun, nofun, nofun⟩
  have answer : (app.handle search store).response.status = 400 ∧
      (app.handle search store).response.content.contentType? = some .text := by decide +kernel
  rcases told app search store _ _ .start found
      (.find _ (List.mem_cons_self)) shown calm with succeeds | fails
  · cases answer.1.symm.trans succeeds.1
  · obtain ⟨-, -, -, -, -, -, -, json, -⟩ := fails
    cases answer.2.symm.trans json

end App

end VmAdmission.Http
