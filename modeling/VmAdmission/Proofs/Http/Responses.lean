import VmAdmission.Http.App
import VmAdmission.Proofs.Identifiers
import VmAdmission.Proofs.Net.Percent
import VmAdmission.Proofs.Readers

namespace VmAdmission

/-- An operation on a machine is refused, with the store as it was, or its recording decides. -/
theorem PipelineConfig.submit_end {config : PipelineConfig} {services : Services}
    {operation : Operation} {order : VmOrder} {scope : Scope} {store : Store}
    (memory : store.backend = .memory) :
    let attempt :=
      (config.submit services operation order scope).run config.admission.storeTimeout store
    (∃ halt, attempt.result = .error halt ∧ attempt.store = store) ∨
    ∃ new result after, DeploymentEnd config.admission store new [] (result, after) ∧
      attempt.result = result.mapError .refused ∧ attempt.store.ledger = after := by
  intro attempt
  obtain ⟨halt, failed⟩ | ⟨other, passed⟩ := Order.submit_check config services operation order scope
  · exact .inl ⟨halt, Submission.run_refused failed⟩
  · exact .inr ⟨_, _, _, recordRequest_other_end memory other, Submission.run_passed passed⟩

namespace Http

/-- An id can be written in a header. -/
theorem isHeaderBreak_uuid {id : Uuid} {c : Char} (member : c ∈ id.text.toList) :
    isHeaderBreak c = false := by
  have digits : ∀ d < 16, isHeaderBreak (Nat.digitChar d) = false := by decide
  rcases Uuid.mem_text member with rfl | ⟨d, small, rfl⟩
  · rfl
  · exact digits d small

/-- The text has no characters outside ASCII and no control characters. -/
def Visible (text : String) : Prop :=
  ∀ c ∈ text.toList, 0x20 ≤ c.toNat ∧ c.toNat < 0x7F

instance (text : String) : Decidable (Visible text) :=
  decidable_of_iff (text.toList.all fun c => 0x20 ≤ c.toNat ∧ c.toNat < 0x7F)
    (by simp only [Visible, List.all_eq_true, decide_eq_true_eq])

theorem Visible.unbroken {text : String} (visible : Visible text) :
    text.toList.any isHeaderBreak = false := by
  refine List.any_eq_false.mpr fun c member => ?_
  obtain ⟨low, high⟩ := visible c member
  have plain : Percent.control c = false := by
    simp [Percent.control]
    omega
  simp [isHeaderBreak, plain]

section

variable {settings : Settings}

theorem any_isHeaderBreak_location (id : Uuid) :
    (settings.requestBasePath ++ id.text).toList.any isHeaderBreak =
      settings.requestBasePath.toList.any isHeaderBreak := by
  have unbroken : id.text.toList.any isHeaderBreak = false :=
    List.any_eq_false.mpr fun c member => by simp [isHeaderBreak_uuid member]
  rw [String.toList_append, List.any_append, unbroken, Bool.or_false]

theorem accepted_unbroken (unbroken : settings.requestBasePath.toList.any isHeaderBreak = false)
    (recorded : Recorded) : accepted settings recorded = {
      status := 202
      content := .accepted
      location := some (settings.requestBasePath ++ recorded.request.id.text) } := by
  simp only [accepted, any_isHeaderBreak_location, unbroken, Bool.false_eq_true, if_false]

theorem accepted_broken (broken : settings.requestBasePath.toList.any isHeaderBreak = true)
    (recorded : Recorded) :
    accepted settings recorded = .plain 500 "failed to parse header value" := by
  simp only [accepted, any_isHeaderBreak_location, broken, if_true]

theorem accepted_of_visible (visible : Visible settings.requestBasePath)
    (recorded : Recorded) : accepted settings recorded = {
      status := 202
      content := .accepted
      location := some (settings.requestBasePath ++ recorded.request.id.text) } :=
  accepted_unbroken visible.unbroken recorded

end

/-- The response is not that to a request that was recorded. -/
def Response.Refuses (response : Response) : Prop :=
  response.status ≠ 202

theorem refuses_ofFailure (report : ErrorReport) (operation : Option ApiOperation) :
    (Response.ofFailure report operation).Refuses := by
  have failing (c : StatusClass) : c.httpStatus ≠ 202 := by cases c <;> decide
  exact failing _

theorem refuses_halted (operation : ApiOperation) (halt : Halt) :
    (halted operation halt).Refuses := by
  cases halt with
  | refused => exact refuses_ofFailure _ _
  | crashed => exact refuses_ofFailure _ _

/-- The machines that a request asks for: those of the order in its body, if it is sent to where
machines are deployed. -/
def Request.machines (request : Request) : List NewInstance :=
  match Route.ofTarget? request.target,
    Json.decode DeployOrder.decoder (Utf8.symbols request.body) with
  | some .machines, .ok order => order.machines
  | _, _ => []

/-- The request has been recorded, with one row of its own and with all machines that it asks
for. -/
structure Request.Records (request : Request) (before after : Ledger) (row : RequestRow) :
    Prop where
  requests : after.requests = before.requests ++ [row]
  instances : after.instances = before.instances ++ request.machines.map (·.row row.id)

/-- The order in the request passed the checks and its request was written, and the call of its own
that was to write its machines then failed. -/
def App.LeavesHalf (app : App) (request : Request) (store : Store) (row : RequestRow) : Prop :=
  ∃ order scope e, Route.ofTarget? request.target = some .machines ∧ request.method = .post ∧
    readBody request .deploy DeployOrder.decoder = .ok order ∧ requestScope request = .ok scope ∧
    app.settings.pipeline.HalfDone app.services order scope store row e

/-- How the handling of a request can end, with a status, a location and a ledger. -/
inductive App.Ends (app : App) (request : Request) (store : Store) :
    Nat → Option String → Ledger → Prop
  | recorded {row : RequestRow} {after : Ledger} (records : request.Records store.ledger after row)
      (fresh : store.ledger.Fresh row.id) :
      Ends app request store 202 (some (app.settings.requestBasePath ++ row.id.text)) after
  | requestOnly {row : RequestRow} {status : Nat} {location : Option String} {after : Ledger}
      (half : app.LeavesHalf request store row) (other : status ≠ 202)
      (requests : after.requests = store.ledger.requests ++ [row])
      (instances : after.instances = store.ledger.instances) :
      Ends app request store status location after
  | nothing {status : Nat} {location : Option String} (other : status ≠ 202) :
      Ends app request store status location store.ledger

/-- The response and the ledger are those of one of the ends. -/
abbrev App.EndsWith (app : App) (request : Request) (store : Store) (served : Served) : Prop :=
  app.Ends request store served.response.status served.response.location served.store.ledger

theorem readBody_ok {α : Type} {request : Request} {operation : Operation}
    {decoder : Json.Decoder α} {value : α} (read : readBody request operation decoder = .ok value) :
    Json.decode decoder (Utf8.symbols request.body) = .ok value := by
  unfold readBody at read
  split at read
  · cases read
  split at read
  · cases read
    assumption
  · cases read

theorem readBody_of_decode {α : Type} {request : Request} {operation : Operation}
    {decoder : Json.Decoder α} {value : α} (short : request.body.length ≤ maxBodySize)
    (decoded : Json.decode decoder (Utf8.symbols request.body) = .ok value) :
    readBody request operation decoder = .ok value := by
  simp only [readBody, if_neg (Nat.not_lt.mpr short), decoded]

theorem readBody_error {α : Type} {request : Request} {operation : Operation}
    {decoder : Json.Decoder α} {response : Response}
    (failed : readBody request operation decoder = .error response) : response.Refuses := by
  unfold readBody at failed
  split at failed
  · cases failed
    exact (by decide : 413 ≠ 202)
  split at failed
  · cases failed
  · cases failed
    exact refuses_ofFailure _ _

theorem parameter_plain {raw : String} (plain : '%' ∉ raw.toList) (name : String) :
    parameter name raw = .ok raw := by
  simp only [parameter, Percent.decode_encode_plain plain, Utf8.decode?_encode]

theorem parameter_error {name raw : String} {response : Response}
    (failed : parameter name raw = .error response) : response.Refuses := by
  unfold parameter at failed
  split at failed
  · cases failed
  · cases failed
    exact (by decide : 400 ≠ 202)

theorem badScope_error {operation : Operation} {scope : Except ErrorReport Scope}
    {response : Response}
    (failed : scope.mapError (App.badScope operation) = .error response) :
    response.Refuses := by
  cases scope with
  | ok => cases failed
  | error report =>
    cases failed
    exact refuses_ofFailure _ _

/-- A header that shows a token. -/
def tokenHeader : String × List UInt8 :=
  ("authorization", Utf8.encode "Bearer token")

/-- An app over a store in memory, with these checks and services and default settings for the
rest. -/
def App.inMemory (config : PipelineConfig) (services : Services) : App where
  settings := {
    databaseUrl := none
    storeBackend := .memory
    listenAddress := .v4 (.ofNat 0) 8080
    monitors := Settings.endpoints fun _ => none
    pipeline := config
    requestBasePath := "/virtualization/v1beta1/virtual-machines-request/" }
  services := services

theorem App.inMemory_visible (config : PipelineConfig) (services : Services) :
    Visible (App.inMemory config services).settings.requestBasePath := by
  change Visible "/virtualization/v1beta1/virtual-machines-request/"
  decide +kernel

namespace App

variable {app : App} {request : Request} {store : Store}

/-- A request that shows a token only is made in no scope. -/
theorem requestScope_of_token (headers : request.headers = [tokenHeader]) :
    requestScope request = .ok {} := by
  have other : Ascii.alike "authorization" "x-workspace-id" = false ∧
      Ascii.alike "authorization" "x-datacenter-id" = false := by decide
  have absent : request.header? "x-workspace-id" = none ∧
      request.header? "x-datacenter-id" = none := by
    simp [Request.header?, headers, tokenHeader, other]
  simp only [requestScope, scopeId, absent]
  rfl

theorem bearerToken?_of_token (headers : request.headers = [tokenHeader]) :
    (bearerToken? request).isSome = true := by
  have shown : request.header? "authorization" = some "Bearer token" := by
    simp only [Request.header?, headers]
    decide +kernel
  simp only [bearerToken?, shown]
  decide +kernel

theorem deploy_error {response : Response} (failed : app.deploy request = .error response) :
    response.Refuses := by
  refine bind_error readBody_error (fun order failed => ?_) failed
  refine bind_error badScope_error (fun scope failed => ?_) failed
  cases failed

theorem deploy_ok {submission : Submission Recorded} (passed : app.deploy request = .ok submission) :
    ∃ order scope, readBody request .deploy DeployOrder.decoder = .ok order ∧
      requestScope request = .ok scope ∧
      submission = app.settings.pipeline.deploy app.services order scope := by
  obtain ⟨order, body, passed⟩ := bind_ok passed
  obtain ⟨scope, found, passed⟩ := bind_ok passed
  cases passed
  exact ⟨order, scope, body, mapError_ok found, rfl⟩

/-- What a request says of the machine that it is about: only one that changes it says anything. -/
def spec? (request : Request) (operation : Operation) : Except Response (Option Json.Canonical) :=
  if operation = .reconfigure then some <$> readBody request operation Json.tree else pure none

theorem spec?_error {operation : Operation} {response : Response}
    (failed : spec? request operation = .error response) : response.Refuses := by
  unfold spec? at failed
  split at failed
  · cases body : readBody request operation Json.tree with
    | ok spec =>
      rw [body] at failed
      cases failed
    | error other =>
      rw [body] at failed
      cases failed
      exact readBody_error body
  · cases failed

theorem operate_eq (operation : Operation) (rawId : String) :
    app.operate request operation rawId = do
      let vmId ← parameter "vm_id" rawId
      let spec ← spec? request operation
      let scope ← (requestScope request).mapError (badScope operation)
      return app.settings.pipeline.submit app.services operation ⟨vmId, spec⟩ scope := by
  unfold operate spec?
  by_cases reconfigures : operation = .reconfigure
  · simp only [if_pos reconfigures]
  · simp only [if_neg reconfigures]

theorem operate_error {operation : Operation} {rawId : String} {response : Response}
    (failed : app.operate request operation rawId = .error response) : response.Refuses := by
  rw [operate_eq] at failed
  refine bind_error parameter_error (fun vmId failed => ?_) failed
  refine bind_error spec?_error (fun spec failed => ?_) failed
  refine bind_error badScope_error (fun scope failed => ?_) failed
  cases failed

theorem operate_ok {operation : Operation} {rawId : String} {submission : Submission Recorded}
    (passed : app.operate request operation rawId = .ok submission) :
    ∃ vmId spec scope, parameter "vm_id" rawId = .ok vmId ∧ spec? request operation = .ok spec ∧
      requestScope request = .ok scope ∧
      submission = app.settings.pipeline.submit app.services operation ⟨vmId, spec⟩ scope := by
  rw [operate_eq] at passed
  obtain ⟨vmId, named, passed⟩ := bind_ok passed
  obtain ⟨spec, body, passed⟩ := bind_ok passed
  obtain ⟨scope, found, passed⟩ := bind_ok passed
  cases passed
  exact ⟨vmId, spec, scope, named, body, mapError_ok found, rfl⟩

theorem answered_ends (memory : store.backend = .memory) {α : Type} {dialogue : Dialogue α}
    (reads : dialogue.Reads) (operation : ApiOperation) (content : α → Content) :
    app.EndsWith request store (app.answered operation content dialogue store) := by
  have same := reads.run_ledger app.settings.pipeline.admission.storeTimeout memory
  unfold EndsWith answered
  simp only [same]
  cases (dialogue.run app.settings.pipeline.admission.storeTimeout store).result with
  | ok value => exact .nothing (by decide : 200 ≠ 202)
  | error error => exact .nothing (refuses_ofFailure _ _)

theorem find_ends (memory : store.backend = .memory) (rawId : String) :
    app.EndsWith request store (app.find rawId store) := by
  unfold find
  cases found : parameter "request_id" rawId with
  | error response => exact .nothing (parameter_error found)
  | ok text =>
    simp only
    cases Uuid.parse text with
    | error => exact .nothing (refuses_ofFailure _ _)
    | ok id => exact answered_ends memory (findRequest_reads id) _ _

theorem submitted_refused {submission : Submission Recorded} {halt : Halt} (operation : Operation)
    (failed : (submission.run app.settings.pipeline.admission.storeTimeout store).result =
      .error halt)
    (same : (submission.run app.settings.pipeline.admission.storeTimeout store).store = store) :
    app.EndsWith request store (app.submitted operation submission store) := by
  unfold EndsWith submitted
  simp only [failed, same]
  exact .nothing (refuses_halted _ _)

theorem machines_of_order {order : DeployOrder}
    (route : Route.ofTarget? request.target = some .machines)
    (body : readBody request .deploy DeployOrder.decoder = .ok order) :
    request.machines = order.machines := by
  simp only [Request.machines, route, readBody_ok body]

section

variable {stamps : Nat → Stamp} (reach : StoreReach stamps store)
  (distinct : DistinctIds stamps (store.issued + 1))
  (visible : Visible app.settings.requestBasePath)

include reach distinct visible

theorem submitted_ends {submission : Submission Recorded} (operation : Operation)
    {new : NewRequest} {result : Except RequestError Recorded} {after : Ledger}
    (ending : DeploymentEnd app.settings.pipeline.admission store new request.machines
      (result, after))
    (left : ∀ row e, HalfWritten app.settings.pipeline.admission store new request.machines row e →
      app.LeavesHalf request store row)
    (attempted : (submission.run app.settings.pipeline.admission.storeTimeout store).result =
      result.mapError .refused)
    (ledger : (submission.run app.settings.pipeline.admission.storeTimeout store).store.ledger =
      after) :
    app.EndsWith request store (app.submitted operation submission store) := by
  unfold EndsWith submitted
  simp only [attempted, ledger]
  cases ending with
  | all recorded writes row machines =>
    simp only [Except.mapError, accepted_of_visible visible]
    refine .recorded ⟨rfl, congrArg (store.ledger.instances ++ ·) machines⟩ ?_
    rw [row]
    exact reach.fresh distinct
  | nothing e => exact .nothing (refuses_halted _ _)
  | requestOnly half =>
    exact .requestOnly (left _ _ half) (refuses_halted _ _) rfl (List.append_nil _)

theorem deploy_ends (route : Route.ofTarget? request.target = some .machines)
    (post : request.method = .post) :
    app.EndsWith request store (app.carryOut .deploy (app.deploy request) store) := by
  unfold carryOut
  cases found : app.deploy request with
  | error response => exact .nothing (deploy_error found)
  | ok submission =>
    obtain ⟨order, scope, body, headers, rfl⟩ := deploy_ok found
    have machines := machines_of_order route body
    obtain ⟨halt, failed, same⟩ | ⟨-, stored, form, passed, result, after, ending, attempted, ledger⟩ :=
      PipelineConfig.deploy_end reach.backend
    · exact submitted_refused _ failed same
    · rw [← machines] at ending
      refine submitted_ends reach distinct visible _ ending (fun row e half => ?_) attempted ledger
      rw [machines] at half
      exact ⟨order, scope, e, route, post, body, headers, stored, form, passed, half⟩

theorem operate_ends (bare : request.machines = []) (operation : Operation) (rawId : String) :
    app.EndsWith request store
      (app.carryOut operation (app.operate request operation rawId) store) := by
  unfold carryOut
  cases found : app.operate request operation rawId with
  | error response => exact .nothing (operate_error found)
  | ok submission =>
    obtain ⟨vmId, spec, scope, -, -, -, rfl⟩ := operate_ok found
    obtain ⟨halt, failed, same⟩ | ⟨new, result, after, ending, attempted, ledger⟩ :=
      PipelineConfig.submit_end reach.backend
    · exact submitted_refused _ failed same
    · rw [← bare] at ending
      exact submitted_ends reach distinct visible _ ending
        (fun _ _ half => absurd bare half.needed) attempted ledger

theorem dispatch_ends {route : Route} (found : Route.ofTarget? request.target = some route)
    (served : request.method ∈ route.methods) :
    app.EndsWith request store (app.dispatch request store route) := by
  have bare (other : route ≠ .machines) : request.machines = [] := by
    unfold Request.machines
    rw [found]
    split
    · rename_i same _
      exact absurd (Option.some.inj same) other
    · rfl
  cases route with
  | health => exact .nothing (by decide : 200 ≠ 202)
  | machines => exact deploy_ends reach distinct visible found (List.mem_singleton.mp served)
  | machine rawId => exact operate_ends reach distinct visible (bare Route.noConfusion) _ rawId
  | action operation rawId =>
    exact operate_ends reach distinct visible (bare Route.noConfusion) operation rawId
  | requests => exact answered_ends reach.backend listRequests_reads ..
  | request rawId => exact find_ends reach.backend rawId

theorem atRoute_ends {route : Route} (found : Route.ofTarget? request.target = some route) :
    app.EndsWith request store (app.atRoute request route store) := by
  have refused : unauthorized.Refuses := refuses_ofFailure _ _
  by_cases served : request.method ∈ route.methods
  · by_cases welcome : route = .health ∨ (bearerToken? request).isSome
    · simp only [atRoute, if_pos served, if_pos welcome]
      exact dispatch_ends reach distinct visible found served
    · simp only [atRoute, if_pos served, if_neg welcome]
      exact .nothing refused
  · by_cases welcome : route = .health ∨ (bearerToken? request).isSome
    · simp only [atRoute, if_neg served, if_pos welcome]
      exact .nothing (by decide : 405 ≠ 202)
    · simp only [atRoute, if_neg served, if_neg welcome]
      exact .nothing refused

theorem handle_ends : app.EndsWith request store (app.handle request store) := by
  unfold handle
  cases found : Route.ofTarget? request.target with
  | none => exact .nothing (by decide : 404 ≠ 202)
  | some route =>
    have ends : app.EndsWith request store (app.atRoute request route store) :=
      atRoute_ends reach distinct visible found
    exact ends

end

section

variable {status : Nat} {location : Option String} {after : Ledger}

theorem LeavesHalf.inTurn {row : RequestRow} (half : app.LeavesHalf request store row) :
    app.settings.pipeline.admission.atomic = false := by
  obtain ⟨order, scope, e, -, -, -, -, stored, -, -, half⟩ := half
  exact half.inTurn

theorem LeavesHalf.needed {row : RequestRow} (half : app.LeavesHalf request store row) :
    request.machines ≠ [] := by
  obtain ⟨order, scope, e, route, -, body, -, stored, -, -, half⟩ := half
  rw [machines_of_order route body]
  exact half.needed

theorem Ends.status_iff (ends : app.Ends request store status location after) :
    status = 202 ↔ ∃ row, request.Records store.ledger after row := by
  cases ends with
  | @recorded row _ records => exact ⟨fun _ => ⟨row, records⟩, fun _ => rfl⟩
  | requestOnly half other _ same =>
    -- The request is recorded but not its machines, of which there is at least one.
    refine ⟨fun accepted => absurd accepted other, fun ⟨row, records⟩ => ?_⟩
    have bare := List.self_eq_append_right.mp (same.symm.trans records.instances)
    exact absurd (List.map_eq_nil_iff.mp bare) half.needed
  | nothing other =>
    refine ⟨fun accepted => absurd accepted other, fun ⟨row, records⟩ => ?_⟩
    cases List.self_eq_append_right.mp records.requests

theorem Ends.located (ends : app.Ends request store status location after) {row : RequestRow}
    (records : request.Records store.ledger after row) :
    store.ledger.Fresh row.id ∧
      location = some (app.settings.requestBasePath ++ row.id.text) := by
  have accepted := ends.status_iff.mpr ⟨row, records⟩
  cases ends with
  | @recorded other _ again fresh =>
    have same := List.append_cancel_left (again.requests.symm.trans records.requests)
    cases same
    exact ⟨fresh, rfl⟩
  | requestOnly _ other => exact absurd accepted other
  | nothing other => exact absurd accepted other

theorem Ends.refused (ends : app.Ends request store status location after)
    (refused : status ≠ 202) :
    after.instances = store.ledger.instances ∧
      (after.requests = store.ledger.requests ∨
        ∃ row, after.requests = store.ledger.requests ++ [row] ∧
          app.LeavesHalf request store row) := by
  cases ends with
  | recorded => exact absurd rfl refused
  | @requestOnly row _ _ _ half _ requests instances => exact ⟨instances, .inr ⟨row, requests, half⟩⟩
  | nothing => exact ⟨rfl, .inl rfl⟩

theorem Ends.prefixes (ends : app.Ends request store status location after) :
    store.ledger.requests <+: after.requests ∧ store.ledger.instances <+: after.instances := by
  cases ends with
  | recorded records => exact ⟨⟨_, records.requests.symm⟩, ⟨_, records.instances.symm⟩⟩
  | requestOnly _ _ requests instances =>
    exact ⟨⟨_, requests.symm⟩, instances ▸ List.prefix_refl _⟩
  | nothing => exact ⟨List.prefix_refl _, List.prefix_refl _⟩

end

/-- Whatever is sent, however the services behave and whatever fails at the store: the response says
that the request is accepted exactly if it has been recorded with all machines that it asks for, and
then it says where. After every other response there are no new machines, and no new request but one
for a deployment whose machines could not be written after it. Rows that are there stay where they
are. -/
theorem handle_status {stamps : Nat → Stamp} {store : Store} (reach : StoreReach stamps store)
    (distinct : DistinctIds stamps (store.issued + 1)) (app : App)
    (visible : Visible app.settings.requestBasePath) (request : Request) :
    let served := app.handle request store
    let after := served.store.ledger
    (served.response.status = 202 ↔ ∃ row, request.Records store.ledger after row) ∧
      (∀ row, request.Records store.ledger after row → store.ledger.Fresh row.id ∧
        served.response.location = some (app.settings.requestBasePath ++ row.id.text)) ∧
      (served.response.status ≠ 202 → after.instances = store.ledger.instances ∧
        (after.requests = store.ledger.requests ∨
          ∃ row, after.requests = store.ledger.requests ++ [row] ∧
            app.settings.pipeline.admission.atomic = false ∧ app.LeavesHalf request store row)) ∧
      store.ledger.requests <+: after.requests ∧ store.ledger.instances <+: after.instances := by
  intro served after
  have ends : app.Ends request store served.response.status served.response.location after :=
    handle_ends reach distinct visible
  refine ⟨ends.status_iff, fun row records => ends.located records, fun refused => ?_,
    ends.prefixes⟩
  obtain ⟨instances, same | ⟨row, requests, half⟩⟩ := ends.refused refused
  · exact ⟨instances, .inl same⟩
  · exact ⟨instances, .inr ⟨row, requests, half.inTurn, half⟩⟩

/-- An operation that is recorded, and two machines that cannot be written after their request. -/
theorem handle_status_failing :
    let app := App.inMemory {} (.uniform .none .crash)
    let store := Store.disturb { stamps := Stamp.numbered } (fun _ => {}) { instanceWrites := true }
    let powerOn : Request :=
      ⟨.post, "/virtualization/v1beta1/virtual-machines/vm-1/power-on", [tokenHeader], []⟩
    let deploy : Request := ⟨.post, "/virtualization/v1beta1/virtual-machines", [tokenHeader],
      Utf8.encode (DeployOrder.ofMachines "web" 2).text⟩
    StoreReach Stamp.numbered store ∧ DistinctIds Stamp.numbered (store.issued + 1) ∧
      Visible app.settings.requestBasePath ∧
      (∃ row, powerOn.Records store.ledger (app.handle powerOn store).store.ledger row ∧
        (app.handle powerOn store).response.location =
          some (app.settings.requestBasePath ++ row.id.text)) ∧
      (app.handle deploy store).response.status = 500 ∧
      (app.handle deploy store).store.ledger.instances = [] ∧
      ∃ row, (app.handle deploy store).store.ledger.requests = [row] ∧
        app.LeavesHalf deploy store row := by
  intro app store powerOn deploy
  have reach : StoreReach Stamp.numbered store := .disturbed _ _ .start
  have distinct : DistinctIds Stamp.numbered (store.issued + 1) := distinctIds_numbered (by decide)
  have visible : Visible app.settings.requestBasePath := inMemory_visible _ _
  obtain ⟨accepted, located, -⟩ := handle_status reach distinct app visible powerOn
  obtain ⟨row, records⟩ := accepted.mp (by decide +kernel)
  have failed : (app.handle deploy store).response.status = 500 ∧
      (app.handle deploy store).store.ledger.requests.length = 1 := by decide +kernel
  obtain ⟨-, -, refused, -⟩ := handle_status reach distinct app visible deploy
  obtain ⟨bare, same | ⟨lone, requests, -, half⟩⟩ := refused (by rw [failed.1]; decide)
  · cases (congrArg List.length same).symm.trans failed.2
  · exact ⟨reach, distinct, visible, ⟨row, records, (located row records).2⟩, failed.1, bare, lone,
      requests, half⟩

end App

end Http

end VmAdmission
