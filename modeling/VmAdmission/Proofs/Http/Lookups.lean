import VmAdmission.Proofs.Http.Orders

namespace VmAdmission

/-- The order says from what image it wants its machines, and on what host and cluster. -/
def DeployOrder.Placed (order : DeployOrder) : Prop :=
  ∀ value ∈ [order.imageSource.imageId, order.destination.hostId, order.destination.clusterId],
    ∃ text, value = some text ∧ text ≠ ""

theorem required_named {name : String} {value : Option String} {text : String}
    (ok : required name value = .ok text) : value = some text ∧ text ≠ "" := by
  have given := required_ok ok
  refine ⟨given, fun empty => ?_⟩
  rw [given, empty] at ok
  cases ok

theorem DeployOrder.placed_of_target {order : DeployOrder} {target : DeployTarget}
    (ok : order.target = .ok target) : order.Placed := by
  obtain ⟨imageId, image, ok⟩ := bind_ok ok
  obtain ⟨hostId, host, ok⟩ := bind_ok ok
  obtain ⟨clusterId, cluster, -⟩ := bind_ok ok
  intro value listed
  simp only [List.mem_cons, List.not_mem_nil, or_false] at listed
  rcases listed with rfl | rfl | rfl
  · exact ⟨imageId, required_named image⟩
  · exact ⟨hostId, required_named host⟩
  · exact ⟨clusterId, required_named cluster⟩

namespace Order

/-- The order, handled with other services. -/
def withServices (services : Services) : Order → Order
  | deploy config _ order scope => deploy config services order scope
  | submit config _ operation order scope => submit config services operation order scope

/-- The machine that an operation is ordered for. -/
def vmId? : Order → Option String
  | deploy _ _ _ _ => none
  | submit _ _ _ order _ => some order.vmId

/-- The order is to be refused for what it says itself: it asks for too many machines or does not
say where they are to be, or it is no operation on a machine that has a name. -/
def Unfit : Order → Prop
  | deploy config _ order _ =>
    (config.admission.maxVmsPerDeploy.toNat : Int) < order.requested.toInt ∨ ¬ order.Placed
  | submit _ _ operation order _ => operation = .deploy ∨ order.vmId ∈ ["", ".", ".."]

theorem submission_disabled {order : Order} (disabled : order.config.validation.enabled = false)
    (services : Services) :
    (order.withServices services).submission = order.submission ∧ order.submission.lookups = [] := by
  cases order with
  | deploy config own order scope =>
    have off : ¬ config.validation.enabled := Bool.eq_false_iff.mp disabled
    simp only [withServices, submission, PipelineConfig.deploy, if_neg off, true_and]
    cases checkVmCount order.requested config.admission.maxVmsPerDeploy with
    | error e => rfl
    | ok => rfl
  | submit config own operation order scope =>
    have off : ¬ config.validation.enabled := Bool.eq_false_iff.mp disabled
    simp only [withServices, submission, PipelineConfig.submit, Services.validateVm, if_neg off,
      true_and]
    split
    · rfl
    split
    · rfl
    · rfl

theorem submission_unfit {order : Order} (enabled : order.config.validation.enabled = true)
    (unfit : order.Unfit) : ∃ error, order.submission = .refuse error := by
  cases order with
  | deploy config services order scope =>
    simp only [submission, PipelineConfig.deploy]
    cases count : checkVmCount order.requested config.admission.maxVmsPerDeploy with
    | error e => exact ⟨e, rfl⟩
    | ok =>
      cases wanted : order.target with
      | error e => exact ⟨e, if_pos enabled⟩
      | ok target =>
        have most := checkVmCount_ok_iff.mp count
        have placed := DeployOrder.placed_of_target wanted
        rcases unfit with many | unplaced
        · exact absurd most (Int.not_le.mpr many)
        · exact absurd placed unplaced
  | submit config services operation order scope =>
    simp only [submission, PipelineConfig.submit]
    by_cases deploy : operation = .deploy
    · exact ⟨_, if_pos deploy⟩
    · have nameless : order.vmId ∈ PipelineConfig.namelessIds := unfit.resolve_left deploy
      rw [if_neg deploy, if_pos nameless]
      exact ⟨_, rfl⟩

theorem lookups_fit {order : Order} {vmId : String}
    (enabled : order.config.validation.enabled = true) (about : order.vmId? = some vmId)
    (fit : ¬ order.Unfit) : order.submission.lookups = [.vm vmId] := by
  cases order with
  | deploy => cases about
  | submit config services operation order scope =>
    cases about
    obtain ⟨other, named⟩ := not_or.mp fit
    have named : order.vmId ∉ PipelineConfig.namelessIds := named
    have on : config.validation.enabled := enabled
    simp only [submission, PipelineConfig.submit, if_neg other, if_neg named, Preflight.andThen,
      Services.validateVm, if_pos on]

section

variable {order : Order} {store : Store}

theorem attempt_disabled (disabled : order.config.validation.enabled = false)
    (services : Services) :
    (order.attempt store).lookups = [] ∧
      (order.withServices services).attempt store = order.attempt store := by
  obtain ⟨same, bare⟩ := submission_disabled disabled services
  have config : (order.withServices services).config = order.config := by
    cases order <;> rfl
  rw [attempt_lookups, bare, attempt, same, config]
  exact ⟨rfl, rfl⟩

theorem attempt_unfit (enabled : order.config.validation.enabled = true) (unfit : order.Unfit) :
    (order.attempt store).lookups = [] ∧ (order.attempt store).store = store ∧
      ∃ error, (order.attempt store).result = .error (.refused error) := by
  obtain ⟨error, refused⟩ := submission_unfit enabled unfit
  rw [attempt, refused]
  exact ⟨rfl, rfl, error, rfl⟩

theorem attempt_fit {vmId : String} (enabled : order.config.validation.enabled = true)
    (about : order.vmId? = some vmId) (fit : ¬ order.Unfit) :
    (order.attempt store).lookups = [.vm vmId] := by
  rw [attempt_lookups, lookups_fit enabled about fit]

end

end Order

namespace Http.App

variable {app : App} {request : Request} {store : Store} {operation : Operation}

section

variable (disabled : app.settings.pipeline.validation.enabled = false) (services : Services)

include disabled

theorem deploy_disabled : ({ app with services } : App).deploy request = app.deploy request := by
  refine bind_congr fun order => bind_congr fun scope => congrArg Except.ok ?_
  let own : Order := .deploy app.settings.pipeline app.services order scope
  exact (own.submission_disabled disabled services).1

theorem operate_disabled (rawId : String) :
    ({ app with services } : App).operate request operation rawId =
      app.operate request operation rawId := by
  rw [operate_eq, operate_eq]
  refine bind_congr fun vmId => bind_congr fun spec => bind_congr fun scope =>
    congrArg Except.ok ?_
  let own : Order := .submit app.settings.pipeline app.services operation ⟨vmId, spec⟩ scope
  exact (own.submission_disabled disabled services).1

/-- With the checks disabled, requests are answered without the services. -/
theorem handle_disabled :
    ({ app with services } : App).handle request store = app.handle request store := by
  have dispatches (route : Route) :
      ({ app with services } : App).dispatch request store route =
        app.dispatch request store route := by
    cases route with
    | machines => exact congrArg (app.carryOut _ · store) (deploy_disabled disabled services)
    | machine rawId =>
      exact congrArg (app.carryOut _ · store) (operate_disabled disabled services rawId)
    | action operation rawId =>
      exact congrArg (app.carryOut _ · store) (operate_disabled disabled services rawId)
    | health | requests | request => rfl
  simp only [handle, atRoute, dispatches]

end

/-- A request that carries no order looks nothing up. -/
theorem handle_lookups_of_not_carries
    (none : ∀ operation order, ¬ app.Carries request operation order) :
    (app.handle request store).lookups = [] := by
  cases answers_of_not_carries none with
  | atOnce response headOnly refuses handled =>
    rw [handled]
    rfl
  | reading operation content dialogue reads headOnly handled =>
    rw [handled]
    rfl

/-- Which lookups are made for an order, given to the pipeline or over HTTP. With the checks
disabled there are none, and with other services all is the same: the response, the store, and the
time it takes. With other stamps too it is the same, but for the rows that bear them. With the checks
enabled there are none for an order that is unfit, which is refused with nothing written; every other
operation on a machine makes one lookup, that of its machine. A request that carries no order makes
no lookup. -/
theorem lookups_made (store : Store) (services : Services) :
    (∀ order : Order,
      let attempt := order.attempt store
      (order.config.validation.enabled = false →
        attempt.lookups = [] ∧ (order.withServices services).attempt store = attempt ∧
          (store.ledger.Sound → store.OnlyStamped fun store =>
            ((order.attempt store).result, (order.attempt store).store.ledger))) ∧
      (order.config.validation.enabled = true →
        (order.Unfit → attempt.lookups = [] ∧ attempt.store = store ∧
          ∃ error, attempt.result = .error (.refused error)) ∧
        ∀ vmId, order.vmId? = some vmId → ¬ order.Unfit → attempt.lookups = [.vm vmId])) ∧
    ∀ (app : App) (request : Request),
      let served := app.handle request store
      (app.settings.pipeline.validation.enabled = false →
        served.lookups = [] ∧ ({ app with services } : App).handle request store = served ∧
          (store.ledger.Sound → store.OnlyStamped fun store =>
            ((app.handle request store).response, (app.handle request store).store.ledger))) ∧
      (app.settings.pipeline.validation.enabled = true →
        ∀ operation order, app.Carries request operation order →
          (order.Unfit → served.lookups = [] ∧ served.store = store ∧
            served.response.status ≠ 202) ∧
          ∀ vmId, order.vmId? = some vmId → ¬ order.Unfit → served.lookups = [.vm vmId]) ∧
      ((∀ operation order, ¬ app.Carries request operation order) → served.lookups = []) := by
  refine ⟨fun order => ⟨fun disabled => ?_, fun enabled =>
    ⟨Order.attempt_unfit enabled, fun vmId => Order.attempt_fit enabled⟩⟩, fun app request => ?_⟩
  · obtain ⟨bare, same⟩ := @Order.attempt_disabled order store disabled services
    exact ⟨bare, same, order.attempt_stamped⟩
  intro served
  refine ⟨fun disabled => ⟨?_, handle_disabled disabled services, fun sound =>
      (handle_stamped app request sound).1⟩,
    fun enabled operation order carries => ?_, handle_lookups_of_not_carries⟩
  · by_cases carried : ∃ operation order, app.Carries request operation order
    · obtain ⟨operation, order, carries⟩ := carried
      have off := carries.config ▸ disabled
      rw [carries.handle_lookups]
      exact (Order.attempt_disabled off services).1
    · exact handle_lookups_of_not_carries fun operation order carries =>
        carried ⟨operation, order, carries⟩
  · have on := carries.config ▸ enabled
    refine ⟨fun unfit => ?_, fun vmId about fit => ?_⟩
    · obtain ⟨bare, same, error, refused⟩ := Order.attempt_unfit on unfit
      exact ⟨carries.handle_lookups.trans bare, carries.handle_store.trans same,
        carries.handle_refuses refused⟩
    · exact carries.handle_lookups.trans (Order.attempt_fit on about fit)

/-- An operation over HTTP with and without checks, one on a machine without a name, and a
deployment of too many machines. -/
theorem lookups_made_vm :
    let crashing := Services.uniform .none .crash
    let silent := Services.uniform .never .crash
    let app (config : PipelineConfig) := App.inMemory config crashing
    let checked : PipelineConfig := { validation := { enabled := true } }
    let store : Store := { stamps := Stamp.numbered }
    let powerOn : Request :=
      ⟨.post, "/virtualization/v1beta1/virtual-machines/vm-1/power-on", [tokenHeader], []⟩
    let delete : Request :=
      ⟨.delete, "/virtualization/v1beta1/virtual-machines/%2E%2E", [tokenHeader], []⟩
    let deploy : Order :=
      .deploy checked crashing { vmConfig := { name := "web", numberOfVms := some 1001 } } {}
    ((app {}).handle powerOn store).lookups = [] ∧
      ({ app {} with services := silent } : App).handle powerOn store =
        (app {}).handle powerOn store ∧
      (store.OnlyStamped fun store =>
        (((app {}).handle powerOn store).response, ((app {}).handle powerOn store).store.ledger)) ∧
      ((app checked).handle powerOn store).lookups = [.vm "vm-1"] ∧
      ((app checked).handle delete store).lookups = [] ∧
      ((app checked).handle delete store).response.status ≠ 202 ∧
      (deploy.attempt store).lookups = [] ∧ (deploy.attempt store).store = store := by
  intro crashing silent app checked store powerOn delete deploy
  have shown : (bearerToken? powerOn).isSome := by decide +kernel
  have powers : (app checked).Carries powerOn .powerOn
      (.submit checked crashing .powerOn ⟨"vm-1", none⟩ {}) := by
    have found : Route.ofTarget? powerOn.target = some (.action .powerOn "vm-1") := by
      decide +kernel
    exact .submit found (.action _ _) shown (parameter_plain (by decide) _) rfl
      (requestScope_of_token rfl)
  have deletes : (app checked).Carries delete .delete
      (.submit checked crashing .delete ⟨"..", none⟩ {}) := by
    have found : Route.ofTarget? delete.target = some (.machine "%2E%2E") := by
      decide +kernel
    have dots : Utf8.decode? (Percent.decode (Utf8.encode "%2E%2E")) = some ".." := by
      decide +kernel
    exact .submit found (.delete _) shown (by simp only [parameter, dots]) rfl
      (requestScope_of_token rfl)
  obtain ⟨orders, http⟩ := lookups_made store silent
  obtain ⟨disabled, -, -⟩ := http (app {}) powerOn
  obtain ⟨bare, same, stamped⟩ := disabled rfl
  have sound : store.ledger.Sound := (StoreReach.start : StoreReach Stamp.numbered store).sound
  obtain ⟨-, powering, -⟩ := http (app checked) powerOn
  obtain ⟨-, deleting, -⟩ := http (app checked) delete
  obtain ⟨nothing, -, refused⟩ := (deleting rfl _ _ deletes).1 (.inr (by simp))
  obtain ⟨none, kept, -⟩ := ((orders deploy).2 rfl).1 (.inl (by decide))
  exact ⟨bare, same, stamped sound, (powering rfl _ _ powers).2 _ rfl (by simp [Order.Unfit]),
    nothing, refused, none, kept⟩

end Http.App

end VmAdmission
