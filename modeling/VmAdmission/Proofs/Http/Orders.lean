import VmAdmission.Proofs.Http.Responses
import VmAdmission.Proofs.Http.Routes
import VmAdmission.Proofs.Stamps
import VmAdmission.Proofs.StoredOrders

namespace VmAdmission

namespace Order

def scope : Order → Scope
  | deploy _ _ _ scope => scope
  | submit _ _ _ _ scope => scope

/-- The machines that the order asks for. -/
def machines : Order → List NewInstance
  | deploy _ _ order _ => order.machines
  | submit .. => []

/-- What comes of the order when it is handled by itself. -/
def attempt (order : Order) (store : Store) : Attempt Recorded :=
  order.submission.run order.config.admission.storeTimeout store

theorem attempt_lookups (order : Order) (store : Store) :
    (order.attempt store).lookups = order.submission.lookups := by
  simp only [attempt, Submission.run]
  cases order.submission.check.result <;> rfl

theorem attempt_stamped (order : Order) {store : Store} (sound : store.ledger.Sound) :
    store.OnlyStamped fun store =>
      ((order.attempt store).result, (order.attempt store).store.ledger) := by
  cases passed : order.submission.check.result with
  | error halt =>
    have effect (store : Store) :
        ((order.attempt store).result, (order.attempt store).store.ledger) =
          (.error halt, store.ledger) :=
      Prod.ext (Submission.run_refused passed).1
        (congrArg Store.ledger (Submission.run_refused passed).2)
    exact Store.onlyStamped_same _ fun stamps => effect _
  | ok dialogue =>
    obtain ⟨new, rfl, -⟩ := record_of_passed passed
    let limit := order.config.admission.storeTimeout
    have effect (store : Store) :
        ((order.attempt store).result, (order.attempt store).store.ledger) =
          (((recordRequest order.config.admission new).effect limit store).1.mapError .refused,
            ((recordRequest order.config.admission new).effect limit store).2) :=
      Prod.ext (Submission.run_passed passed).1 (Submission.run_passed passed).2
    simp only [effect]
    exact (recordRequest_stamped _ sound).map _

/-- What an order that is recorded adds: its own request, which is made for its tenant, and the
machines that it asks for. -/
structure Adds (order : Order) (before after : Ledger) (recorded : Recorded) : Prop where
  requests : after.requests = before.requests ++ [recorded.request]
  instances : after.instances = before.instances ++ recorded.instances
  machines : recorded.instances = order.machines.map (·.row recorded.request.id)
  workspaceId : recorded.request.workspaceId = order.scope.workspaceId
  datacenterId : recorded.request.datacenterId = order.scope.datacenterId

theorem attempt_adds {order : Order} {store : Store} {recorded : Recorded}
    (ok : (order.attempt store).result = .ok recorded) :
    order.Adds store.ledger (order.attempt store).store.ledger recorded := by
  obtain ⟨dialogue, passed, recording⟩ := Submission.run_ok_iff.mp ok
  obtain ⟨new, rfl, -⟩ := record_of_passed passed
  obtain ⟨memory, -⟩ := recordRequest_ok recording
  obtain ⟨new, effect, ending, tenant, result, ledger⟩ : ∃ new effect,
      DeploymentEnd order.config.admission store new order.machines effect ∧
      (new.workspaceId = order.scope.workspaceId ∧ new.datacenterId = order.scope.datacenterId) ∧
      (order.attempt store).result = effect.1.mapError .refused ∧
      (order.attempt store).store.ledger = effect.2 := by
    cases order with
    | deploy config services order scope =>
      obtain ⟨halt, failed, -⟩ | ⟨-, stored, -, -, result, after, ending, same, ledger⟩ :=
        @PipelineConfig.deploy_end config services order scope store memory
      · cases failed.symm.trans ok
      · exact ⟨_, _, ending, ⟨rfl, rfl⟩, same, ledger⟩
    | submit config services operation order scope =>
      obtain ⟨halt, failed⟩ | ⟨other, passed⟩ := submit_check config services operation order scope
      · cases (Submission.run_refused failed).1.symm.trans ok
      · exact ⟨_, _, recordRequest_other_end memory other, ⟨rfl, rfl⟩,
          Submission.run_passed passed⟩
  cases ending with
  | all found writes request instances =>
    cases result.symm.trans ok
    rw [ledger]
    exact {
      requests := rfl
      instances := rfl
      machines := instances
      workspaceId := request ▸ tenant.1
      datacenterId := request ▸ tenant.2 }
  | nothing => cases result.symm.trans ok
  | requestOnly => cases result.symm.trans ok

/-- An order that is recorded is the last one, and it is recorded for its tenant. -/
theorem attempt_ok {order : Order} {store : Store} {recorded : Recorded}
    (ok : (order.attempt store).result = .ok recorded) :
    (order.attempt store).store.ledger.requests = store.ledger.requests ++ [recorded.request] ∧
      recorded.request.workspaceId = order.scope.workspaceId ∧
      recorded.request.datacenterId = order.scope.datacenterId :=
  let adds := attempt_adds ok
  ⟨adds.requests, adds.workspaceId, adds.datacenterId⟩

end Order

namespace Http

/-- The answer with its body, or with the head alone. -/
def Served.sent (served : Served) (headOnly : Bool) : Served :=
  { served with response := { served.response with headOnly } }

namespace App

variable {app : App} {request : Request} {store : Store} {route : Route} {operation : Operation}

/-- The order that a request carries, if it shows a token and all its parts can be read. -/
inductive Carries (app : App) (request : Request) : Operation → Order → Prop
  | deploy {order : DeployOrder} {scope : Scope}
      (found : Route.ofTarget? request.target = some .machines) (post : request.method = .post)
      (token : (bearerToken? request).isSome)
      (body : readBody request .deploy DeployOrder.decoder = .ok order)
      (tenant : requestScope request = .ok scope) :
      Carries app request .deploy (.deploy app.settings.pipeline app.services order scope)
  | submit {route : Route} {rawId vmId : String} {operation : Operation}
      {spec : Option Json.Canonical} {scope : Scope}
      (found : Route.ofTarget? request.target = some route)
      (operates : route.Operates request.method operation rawId)
      (token : (bearerToken? request).isSome)
      (named : parameter "vm_id" rawId = .ok vmId) (body : spec? request operation = .ok spec)
      (tenant : requestScope request = .ok scope) :
      Carries app request operation
        (.submit app.settings.pipeline app.services operation ⟨vmId, spec⟩ scope)

theorem handle_at (found : Route.ofTarget? request.target = some route) :
    app.handle request store =
      (app.atRoute request route store).sent (request.method = .head) := by
  simp only [handle, found, Served.sent]

theorem atRoute_welcome (served : request.method ∈ route.methods)
    (welcome : route = .health ∨ (bearerToken? request).isSome) :
    app.atRoute request route store = app.dispatch request store route := by
  simp only [atRoute, if_pos served, if_pos welcome]

theorem atRoute_unwelcome (served : request.method ∈ route.methods)
    (unwelcome : ¬ (route = .health ∨ (bearerToken? request).isSome)) :
    app.atRoute request route store = respond unauthorized store := by
  simp only [atRoute, if_pos served, if_neg unwelcome]

/-- A request with a token for a method that is served is passed on to its route. -/
theorem handle_served (found : Route.ofTarget? request.target = some route)
    (served : request.method ∈ route.methods) (token : (bearerToken? request).isSome) :
    app.handle request store =
      (app.dispatch request store route).sent (request.method = .head) := by
  rw [handle_at found, atRoute_welcome served (.inr token)]

theorem dispatch_operate {rawId : String}
    (operates : route.Operates request.method operation rawId) :
    app.dispatch request store route =
      app.carryOut operation (app.operate request operation rawId) store := by
  generalize asked : request.method = method at operates
  cases operates with
  | reconfigure => simp only [dispatch, asked, if_true]
  | delete => simp only [dispatch, asked, reduceCtorEq, if_false]
  | action => rfl

theorem submitted_headOnly (submission : Submission Recorded) :
    (app.submitted operation submission store).response.headOnly = false := by
  simp only [submitted]
  cases (submission.run app.settings.pipeline.admission.storeTimeout store).result with
  | ok recorded =>
    simp only [accepted]
    split <;> rfl
  | error halt => cases halt <;> rfl

/-- A request that carries an order is answered with what comes of the order. -/
theorem handle_of_carries {order : Order} (carries : app.Carries request operation order) :
    app.handle request store = app.submitted operation order.submission store := by
  obtain ⟨route, found, served, whole, token, dispatched⟩ : ∃ route,
      Route.ofTarget? request.target = some route ∧ request.method ∈ route.methods ∧
      request.method ≠ .head ∧ (bearerToken? request).isSome ∧
      app.dispatch request store route = app.submitted operation order.submission store := by
    cases carries with
    | deploy found post token body tenant =>
      refine ⟨.machines, found, List.mem_singleton.mpr post, by rw [post]; exact nofun, token, ?_⟩
      simp only [dispatch, carryOut, App.deploy, body, tenant]
      rfl
    | submit found operates token named body tenant =>
      refine ⟨_, found, operates.served.2.1, operates.served.2.2, token, ?_⟩
      rw [dispatch_operate operates, operate_eq, named, body, tenant]
      rfl
  have sent : (app.submitted operation order.submission store).response.headOnly = false :=
    submitted_headOnly order.submission
  rw [handle_served found served token, dispatched]
  simp only [Served.sent, whole, decide_false, ← sent]

/-- The response to a request that carries an order, from what came of the order. -/
def answer (app : App) (operation : Operation) : Except Halt Recorded → Response
  | .ok recorded => accepted app.settings recorded
  | .error halt => halted (.lifecycle operation) halt

namespace Carries

variable {order : Order} (carries : app.Carries request operation order)

include carries

theorem config : order.config = app.settings.pipeline := by
  cases carries <;> rfl

theorem tenant : requestScope request = .ok order.scope := by
  cases carries with
  | deploy _ _ _ _ tenant => exact tenant
  | submit _ _ _ _ _ tenant => exact tenant

theorem handle_lookups : (app.handle request store).lookups = (order.attempt store).lookups := by
  rw [handle_of_carries carries, Order.attempt, carries.config]
  rfl

theorem handle_store : (app.handle request store).store = (order.attempt store).store := by
  rw [handle_of_carries carries, Order.attempt, carries.config]
  rfl

theorem handle_response :
    (app.handle request store).response = app.answer operation (order.attempt store).result := by
  rw [handle_of_carries carries, Order.attempt, carries.config]
  rfl

theorem handle_refuses {halt : Halt} (failed : (order.attempt store).result = .error halt) :
    (app.handle request store).response.Refuses := by
  rw [carries.handle_response, failed]
  exact refuses_halted _ _

end Carries

/-- A request that asks for an operation but carries no order is refused at once. -/
theorem handle_of_not_carries (found : Route.ofTarget? request.target = some route)
    (serves : route.Serves request.method (.lifecycle operation))
    (none : ∀ order, ¬ app.Carries request operation order) :
    ∃ response : Response, response.Refuses ∧ ∀ store,
      app.handle request store = (respond response store).sent (request.method = .head) := by
  obtain ⟨inside, served⟩ := serves.served
  by_cases token : (bearerToken? request).isSome
  · obtain ⟨response, refuses, dispatched⟩ : ∃ response : Response, response.Refuses ∧
        ∀ store, app.dispatch request store route = respond response store := by
      obtain ⟨rfl, post, rfl⟩ | ⟨rawId, operates⟩ := serves.deploy_or_operate
      · cases read : app.deploy request with
        | error response =>
          exact ⟨response, deploy_error read, fun store => by rw [dispatch, read]; rfl⟩
        | ok submission =>
          obtain ⟨order, scope, body, tenant, -⟩ := deploy_ok read
          exact absurd (.deploy found post token body tenant) (none _)
      · cases read : app.operate request operation rawId with
        | error response =>
          refine ⟨response, operate_error read, fun store => ?_⟩
          rw [dispatch_operate operates, read]
          rfl
        | ok submission =>
          obtain ⟨vmId, spec, scope, named, body, tenant, -⟩ := operate_ok read
          exact absurd (.submit found operates token named body tenant) (none _)
    refine ⟨response, refuses, fun store => ?_⟩
    rw [handle_served found served token, dispatched]
  · refine ⟨unauthorized, refuses_ofFailure _ _, fun store => ?_⟩
    rw [handle_at found, atRoute_unwelcome served (not_or.mpr ⟨inside, token⟩)]

/-- How a request that carries no order is answered: at once, whatever is in the store, or with
what a dialogue reads there. -/
inductive Answers (app : App) (request : Request) : Prop
  | atOnce (response : Response) (headOnly : Bool) (refuses : response.Refuses)
      (handled : ∀ store, app.handle request store = (respond response store).sent headOnly)
  | reading {α : Type} (operation : ApiOperation) (content : α → Content) (dialogue : Dialogue α)
      (reads : dialogue.Reads) (headOnly : Bool)
      (handled : ∀ store, app.handle request store =
        (app.answered operation content dialogue store).sent headOnly)

theorem answers_find {rawId : String} {headOnly : Bool}
    (handled : ∀ store, app.handle request store = (app.find rawId store).sent headOnly) :
    app.Answers request := by
  unfold find at handled
  cases named : parameter "request_id" rawId with
  | error response =>
    simp only [named] at handled
    exact .atOnce _ _ (parameter_error named) handled
  | ok text =>
    cases parsed : Uuid.parse text with
    | error malformed =>
      simp only [named, parsed] at handled
      exact .atOnce _ _ (refuses_ofFailure _ _) handled
    | ok id =>
      simp only [named, parsed] at handled
      exact .reading _ _ _ (findRequest_reads id) _ handled

theorem answers_of_not_carries (none : ∀ operation order, ¬ app.Carries request operation order) :
    app.Answers request := by
  cases found : Route.ofTarget? request.target with
  | none =>
    refine .atOnce { status := 404 } false (by decide : 404 ≠ 202) fun store => ?_
    simp only [handle, found]
    rfl
  | some route =>
    by_cases served : request.method ∈ route.methods
    · by_cases welcome : route = .health ∨ (bearerToken? request).isSome
      · have handled (store : Store) : app.handle request store =
            (app.dispatch request store route).sent (request.method = .head) := by
          rw [handle_at found, atRoute_welcome served welcome]
        by_cases health : route = .health
        · subst health
          exact .atOnce { status := 200, content := .health } _ (by decide : 200 ≠ 202) handled
        obtain ⟨asked, serves⟩ := Route.exists_serves health served
        cases asked with
        | lifecycle operation =>
          obtain ⟨response, refuses, handled⟩ := handle_of_not_carries found serves (none operation)
          exact .atOnce response _ refuses handled
        | getRequest =>
          obtain ⟨rawId, rfl⟩ := serves.of_getRequest
          exact answers_find handled
        | listRequests =>
          cases serves.of_listRequests
          exact .reading _ _ _ listRequests_reads _ handled
      · refine .atOnce unauthorized (request.method = .head) (refuses_ofFailure _ _)
          fun store => ?_
        rw [handle_at found, atRoute_unwelcome served welcome]
    · let refusal := if route = .health ∨ (bearerToken? request).isSome then { status := 405 }
        else unauthorized
      have refuses : refusal.Refuses := by
        by_cases welcome : route = .health ∨ (bearerToken? request).isSome
        · simp only [refusal, if_pos welcome]
          exact (by decide : 405 ≠ 202)
        · simp only [refusal, if_neg welcome]
          exact refuses_ofFailure _ _
      refine .atOnce { refusal with allow := some route.methods } (request.method = .head) refuses
        fun store => ?_
      rw [handle_at found, atRoute, if_neg served]

/-- The response to a reading dialogue, from what it read. -/
def reading {α : Type} (operation : ApiOperation) (content : α → Content) :
    Except RequestError α → Response
  | .ok value => { status := 200, content := content value }
  | .error error => .ofFailure error.report (some operation)

theorem answered_response {α : Type} (operation : ApiOperation) (content : α → Content)
    (dialogue : Dialogue α) :
    (app.answered operation content dialogue store).response = reading operation content
      (dialogue.effect app.settings.pipeline.admission.storeTimeout store).1 := by
  simp only [answered, Dialogue.effect]
  cases (dialogue.run app.settings.pipeline.admission.storeTimeout store).result <;> rfl

theorem Answers.refuses (answers : app.Answers request) (store : Store) :
    (app.handle request store).response.Refuses := by
  cases answers with
  | atOnce response headOnly refuses handled =>
    rw [handled]
    exact refuses
  | reading operation content dialogue reads headOnly handled =>
    rw [handled]
    simp only [Served.sent, answered_response]
    cases (dialogue.effect app.settings.pipeline.admission.storeTimeout store).1 with
    | ok value => exact (by decide : 200 ≠ 202)
    | error error => exact refuses_ofFailure _ _

/-- Every request is answered, and changes the ledger, in a way that depends on the stamp only in
the rows that bear it; the lookups do not depend on it at all. -/
theorem handle_stamped (app : App) (request : Request) {store : Store}
    (sound : store.ledger.Sound) :
    (store.OnlyStamped fun store =>
      ((app.handle request store).response, (app.handle request store).store.ledger)) ∧
    ∀ stamps, (app.handle request (store.withStamps stamps)).lookups =
      (app.handle request store).lookups := by
  by_cases carried : ∃ operation order, app.Carries request operation order
  · obtain ⟨operation, order, carries⟩ := carried
    refine ⟨?_, fun stamps => ?_⟩
    · simp only [carries.handle_response, carries.handle_store]
      exact (order.attempt_stamped sound).map (app.answer operation)
    · rw [carries.handle_lookups, carries.handle_lookups, order.attempt_lookups,
        order.attempt_lookups]
  · have none (operation : Operation) (order : Order) : ¬ app.Carries request operation order :=
      fun carries => carried ⟨operation, order, carries⟩
    cases answers_of_not_carries none with
    | atOnce response headOnly refuses handled =>
      simp only [handled]
      exact ⟨Store.onlyStamped_same { response with headOnly } fun _ => rfl, fun _ => rfl⟩
    | reading operation content dialogue reads headOnly handled =>
      simp only [handled, Served.sent, answered_response]
      let limit := app.settings.pipeline.admission.storeTimeout
      refine ⟨(reads.onlyStamped limit store).map fun result =>
        { reading operation content result with headOnly }, fun _ => rfl⟩

end App

end Http

end VmAdmission
