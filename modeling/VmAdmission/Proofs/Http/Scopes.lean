import VmAdmission.Proofs.Http.Headers
import VmAdmission.Proofs.Http.Orders
import VmAdmission.Proofs.Text.Blank

namespace VmAdmission.Http

/-- The id of a scope that the headers of a name give. -/
inductive Request.Gives (request : Request) (name : String) : String → Prop
  | absent (none : request.firstValue? name = none) : Gives request name ""
  | trimmed {value : List UInt8} {id : String} (first : request.firstValue? name = some value)
      (readable : Readable value) (trims : TrimsTo (byteText value).toList id.toList)
      (short : id.length ≤ maxScopeLength) : Gives request name id
  | unreadable {value : List UInt8} (first : request.firstValue? name = some value)
      (unreadable : ¬ Readable value) : Gives request name ""

/-- The first header of a name is readable, but without the blanks at its ends it is too long. -/
def Request.Exceeds (request : Request) (name : String) : Prop :=
  ∃ value id, request.firstValue? name = some value ∧ Readable value ∧
    TrimsTo (byteText value).toList id ∧ maxScopeLength < id.length

/-- The headers that say for whom a request is made. -/
def scopeHeaders : List String := ["x-workspace-id", "x-datacenter-id"]

section

variable {request : Request} {name id : String}

theorem scopeId_ok_iff : scopeId request name = .ok id ↔ request.Gives name id := by
  have blank : trimBlanks "" = "" := rfl
  constructor
  · intro ok
    have short : ¬ maxScopeLength < (trimBlanks ((request.header? name).getD "")).length := by
      intro long
      rw [scopeId, if_pos long] at ok
      cases ok
    rw [scopeId, if_neg short] at ok
    cases ok
    cases first : request.firstValue? name with
    | none =>
      rw [Request.header?_absent first, Option.getD_none, blank]
      exact .absent first
    | some value =>
      rw [Request.header?_present first] at short ⊢
      by_cases readable : Readable value
      · rw [if_pos readable] at short ⊢
        exact .trimmed first readable (trimsTo_trimBlanks _) (Nat.le_of_not_lt short)
      · rw [if_neg readable, Option.getD_none, blank]
        exact .unreadable first readable
  · intro gives
    cases gives with
    | absent none =>
      rw [scopeId, Request.header?_absent none, Option.getD_none, blank]
      rfl
    | @trimmed value id first readable trims short =>
      have same : trimBlanks (byteText value) = id := by
        rw [trimBlanks, ← trims.eq_trimChars, String.ofList_toList]
      rw [scopeId, Request.header?_present first, if_pos readable, Option.getD_some, same]
      exact if_neg (Nat.not_lt.mpr short)
    | unreadable first unreadable =>
      rw [scopeId, Request.header?_present first, if_neg unreadable, Option.getD_none, blank]
      rfl

theorem scopeId_exceeds (exceeds : request.Exceeds name) : scopeId request name ≠ .ok id := by
  obtain ⟨value, rest, first, readable, trims, long⟩ := exceeds
  rw [trims.eq_trimChars, ← String.length_ofList] at long
  intro ok
  rw [scopeId, Request.header?_present first, if_pos readable] at ok
  simp only [Option.getD_some] at ok
  rw [trimBlanks, if_pos long] at ok
  cases ok

end

variable {request : Request} {scope : Scope}

theorem requestScope_ok (ok : requestScope request = .ok scope) :
    request.Gives "x-workspace-id" scope.workspaceId ∧
      request.Gives "x-datacenter-id" scope.datacenterId := by
  obtain ⟨workspaceId, workspace, ok⟩ := bind_ok ok
  obtain ⟨datacenterId, datacenter, ok⟩ := bind_ok ok
  cases ok
  exact ⟨scopeId_ok_iff.mp workspace, scopeId_ok_iff.mp datacenter⟩

theorem requestScope_exceeds {name : String} (listed : name ∈ scopeHeaders)
    (exceeds : request.Exceeds name) : requestScope request ≠ .ok scope := by
  intro ok
  obtain ⟨workspaceId, workspace, ok⟩ := bind_ok ok
  obtain ⟨datacenterId, datacenter, -⟩ := bind_ok ok
  rcases List.mem_pair.mp listed with rfl | rfl
  · exact scopeId_exceeds exceeds workspace
  · exact scopeId_exceeds exceeds datacenter

theorem accepted_located {settings : Settings} {recorded : Recorded}
    (status : (accepted settings recorded).status = 202) :
    (accepted settings recorded).location =
      some (settings.requestBasePath ++ recorded.request.id.text) := by
  cases broken : settings.requestBasePath.toList.any isHeaderBreak with
  | true =>
    rw [accepted_broken broken] at status
    cases status
  | false => rw [accepted_unbroken broken]

namespace App

/-- A request that is accepted carries an order that was recorded. -/
theorem carries_of_accepted {app : App} {store : Store}
    (status : (app.handle request store).response.status = 202) :
    ∃ operation order recorded, app.Carries request operation order ∧
      (order.attempt store).result = .ok recorded ∧
      (app.handle request store).response = accepted app.settings recorded := by
  by_cases carried : ∃ operation order, app.Carries request operation order
  · obtain ⟨operation, order, carries⟩ := carried
    cases result : (order.attempt store).result with
    | error halt => exact absurd status (carries.handle_refuses result)
    | ok recorded =>
      refine ⟨operation, order, recorded, carries, result, ?_⟩
      rw [carries.handle_response, result]
      rfl
  · have answers : app.Answers request := answers_of_not_carries fun operation order carries =>
      carried ⟨operation, order, carries⟩
    exact absurd status (answers.refuses store)

/-- A request that is accepted is recorded for the tenant that its headers give. One whose tenant
would be too long is refused, with nothing looked up and nothing written. -/
theorem recorded_for_tenant (app : App) (request : Request) (store : Store) :
    let served := app.handle request store
    (served.response.status = 202 →
      ∃ row, served.store.ledger.requests = store.ledger.requests ++ [row] ∧
        served.response.location = some (app.settings.requestBasePath ++ row.id.text) ∧
        request.Gives "x-workspace-id" row.workspaceId ∧
        request.Gives "x-datacenter-id" row.datacenterId) ∧
    ∀ route operation, Route.ofTarget? request.target = some route →
      route.Serves request.method (.lifecycle operation) →
      ∀ name ∈ scopeHeaders, request.Exceeds name →
        served.response.status ≠ 202 ∧ served.lookups = [] ∧ served.store = store := by
  intro served
  refine ⟨fun status => ?_, fun route operation found serves name listed exceeds => ?_⟩
  · obtain ⟨operation, order, recorded, carries, ok, response⟩ := carries_of_accepted status
    obtain ⟨requests, workspace, datacenter⟩ := Order.attempt_ok ok
    obtain ⟨givesWorkspace, givesDatacenter⟩ := requestScope_ok carries.tenant
    refine ⟨recorded.request, carries.handle_store ▸ requests, ?_, workspace ▸ givesWorkspace,
      datacenter ▸ givesDatacenter⟩
    have accepts : (accepted app.settings recorded).status = 202 := response ▸ status
    exact (congrArg Response.location response).trans (accepted_located accepts)
  · obtain ⟨response, refuses, handled⟩ := handle_of_not_carries found serves
      fun order carries => requestScope_exceeds listed exceeds carries.tenant
    have answer : served = (respond response store).sent (request.method = .head) := handled store
    rw [answer]
    exact ⟨refuses, rfl, rfl⟩

/-- An operation whose workspace has blanks around it, and one whose datacenter is too long. -/
theorem recorded_for_tenant_trimmed :
    let app := App.inMemory {} (.uniform .none .crash)
    let store : Store := { stamps := Stamp.numbered }
    let powerOn (header : String × List UInt8) : Request :=
      ⟨.post, "/virtualization/v1beta1/virtual-machines/vm-1/power-on", [tokenHeader, header], []⟩
    let blank := powerOn ("X-Workspace-Id", Utf8.encode " ws-9\t")
    let long := powerOn ("x-datacenter-id", List.replicate 51 0x64)
    (∃ row, (app.handle blank store).store.ledger.requests = [row] ∧ row.workspaceId = "ws-9" ∧
      row.datacenterId = "") ∧
    (app.handle long store).response.status ≠ 202 ∧ (app.handle long store).store = store := by
  intro app store powerOn blank long
  have accepted : (app.handle blank store).response.status = 202 := by decide +kernel
  obtain ⟨row, requests, -, workspace, datacenter⟩ :=
    (recorded_for_tenant app blank store).1 accepted
  have ids : (scopeId blank "x-workspace-id").toOption = some "ws-9" ∧
      (scopeId blank "x-datacenter-id").toOption = some "" := by decide +kernel
  rw [scopeId_ok_iff.mpr workspace, scopeId_ok_iff.mpr datacenter] at ids
  have found : Route.ofTarget? long.target = some (.action .powerOn "vm-1") := by decide +kernel
  have exceeds : long.Exceeds "x-datacenter-id" := by
    have first : long.firstValue? "x-datacenter-id" = some (List.replicate 51 0x64) := by
      decide +kernel
    have readable : Readable (List.replicate 51 0x64) := by
      intro b member
      rw [List.eq_of_mem_replicate member]
      rfl
    exact ⟨_, _, first, readable, trimsTo_trimChars _, by decide +kernel⟩
  obtain ⟨refused, -, same⟩ := (recorded_for_tenant app long store).2 _ .powerOn found
    (.operate (.action _ _)) "x-datacenter-id" (by simp [scopeHeaders]) exceeds
  exact ⟨⟨row, requests, Option.some.inj ids.1, Option.some.inj ids.2⟩, refused, same⟩

/-- A workspace that is written in UTF-8 is lost if it is not all ASCII: the request is accepted and
recorded for none. -/
theorem recorded_for_no_tenant :
    ¬ ∀ (app : App) (request : Request) (store : Store),
      StoreReach Stamp.numbered store → (app.handle request store).response.status = 202 →
      ∃ row, (app.handle request store).store.ledger.requests =
          store.ledger.requests ++ [row] ∧
        ∀ value text, request.firstValue? "x-workspace-id" = some value →
          Utf8.decode? value = some text → TrimsTo text.toList row.workspaceId.toList := by
  intro kept
  let app := App.inMemory {} (.uniform .none .crash)
  let store : Store := { stamps := Stamp.numbered }
  let powerOn : Request := ⟨.post, "/virtualization/v1beta1/virtual-machines/vm-1/power-on",
    [tokenHeader, ("x-workspace-id", Utf8.encode "wörk")], []⟩
  have handled : (app.handle powerOn store).response.status = 202 ∧
      (app.handle powerOn store).store.ledger.requests.map (·.workspaceId) = [""] := by
    decide +kernel
  obtain ⟨row, requests, trims⟩ := kept app powerOn store .start handled.1
  have lost : row.workspaceId = "" := by
    have rows := handled.2
    rw [requests] at rows
    exact List.head_eq_of_cons_eq rows
  have first : powerOn.firstValue? "x-workspace-id" = some (Utf8.encode "wörk") := by
    decide +kernel
  have again := (trims _ _ first (Utf8.decode?_encode "wörk")).eq_trimChars
  rw [lost] at again
  exact absurd again (by decide +kernel)

end App

end VmAdmission.Http
