import VmAdmission.Proofs.InstancePlans
import VmAdmission.Proofs.Recording

namespace VmAdmission

/-- The failures that checks of a deployment can end in. -/
def Halt.OfChecks : Halt → Prop
  | .refused (.validationFailed _) => True
  | .refused (.dependencyUnavailable _) => True
  | .crashed => True
  | _ => False

/-- A check of a deployment: if it fails, then in one of the ways of checks. -/
def Check.Proper {α : Type} (check : Check α) : Prop :=
  ∀ halt, check.result = .error halt → halt.OfChecks

theorem Behaviour.check_proper {α : Type} (behaviour : Behaviour α) (service : Service)
    (limit : Duration) : (behaviour.check service limit).Proper := by
  intro halt failed
  unfold Behaviour.check at failed
  split at failed
  · cases failed
    trivial
  · simp only at failed
    split at failed <;> cases failed <;> trivial

theorem Check.andThen_error {α β : Type} {check : Check α} {next : α → Except RequestError β}
    {halt : Halt} (failed : check.result = .error halt) :
    (check.andThen next).result = .error halt := by
  simp only [andThen, failed]

theorem Check.andThen_ok {α β : Type} {check : Check α} {next : α → Except RequestError β}
    {value : α} (passed : check.result = .ok value) :
    (check.andThen next).result = (next value).mapError .refused := by
  simp only [andThen, passed]

theorem Check.Proper.andThen {α β : Type} {check : Check α} (proper : check.Proper)
    {next : α → Except RequestError β}
    (refuses : ∀ value e, next value = .error e → (Halt.refused e).OfChecks) :
    (check.andThen next).Proper := by
  intro halt failed
  cases result : check.result with
  | error other =>
    rw [Check.andThen_error result] at failed
    cases failed
    exact proper halt result
  | ok value =>
    rw [Check.andThen_ok result] at failed
    cases found : next value with
    | error e =>
      rw [found] at failed
      cases failed
      exact refuses value e found
    | ok =>
      rw [found] at failed
      cases failed

theorem imageFile_refuses {id : String} {images : List Image} {e : RequestError}
    (failed : imageFile id images = .error e) : (Halt.refused e).OfChecks := by
  unfold imageFile at failed
  split at failed <;> cases failed
  trivial

theorem requireHealthy_refuses {kind : PlaceKind} {name : String} {places : List Place}
    {e : RequestError} (failed : requireHealthy kind name places = .error e) :
    (Halt.refused e).OfChecks := by
  unfold requireHealthy at failed
  split at failed
  · split at failed <;> cases failed
    trivial
  · cases failed
    trivial

theorem earliest?_mem {failures : List (Duration × Halt)} {first : Duration × Halt}
    (found : earliest? failures = some first) : first ∈ failures := by
  induction failures generalizing first with
  | nil => cases found
  | cons failure failures ih =>
    unfold earliest? at found
    cases later : earliest? failures with
    | none =>
      simp only [later, Option.some.injEq] at found
      exact found ▸ List.mem_cons_self
    | some other =>
      simp only [later, Option.some.injEq] at found
      split at found
      · exact found ▸ List.mem_cons_self
      · exact List.mem_cons_of_mem _ (found ▸ ih later)

theorem Check.error_of_failure? {α : Type} {check : Check α} {failure : Duration × Halt}
    (failed : check.failure? = some failure) : check.result = .error failure.2 := by
  cases result : check.result with
  | ok => simp [Check.failure?, result] at failed
  | error halt =>
    simp only [Check.failure?, result, Option.some.injEq] at failed
    rw [← failed]

/-- The checks of a deployment fail as one of them does. -/
theorem Services.checkTarget_error {services : Services} {limit : Duration}
    {target : DeployTarget} {halt : Halt}
    (failed : (services.checkTarget limit target).check.result = .error halt) :
    (services.checkImage limit target.imageId).result = .error halt ∨
      (services.checkHost limit target.host).result = .error halt ∨
      (services.checkCluster limit target.cluster).result = .error halt := by
  unfold checkTarget at failed
  simp only at failed
  split at failed
  · rename_i elapsed first found
    cases failed
    obtain ⟨failure, listed, same⟩ := List.mem_filterMap.mp (earliest?_mem found)
    simp only [List.mem_cons, List.not_mem_nil, or_false] at listed
    rcases listed with rfl | rfl | rfl
    · exact .inl (Check.error_of_failure? same)
    · exact .inr (.inl (Check.error_of_failure? same))
    · exact .inr (.inr (Check.error_of_failure? same))
  · exact .inl failed

theorem Services.checkTarget_proper (services : Services) (limit : Duration)
    (target : DeployTarget) : (services.checkTarget limit target).check.Proper := by
  have image : (services.checkImage limit target.imageId).Proper :=
    Check.Proper.andThen (Behaviour.check_proper _ _ _) fun _ _ => imageFile_refuses
  have host : (services.checkHost limit target.host).Proper :=
    Check.Proper.andThen (Behaviour.check_proper _ _ _) fun _ _ => requireHealthy_refuses
  have cluster : (services.checkCluster limit target.cluster).Proper :=
    Check.Proper.andThen (Behaviour.check_proper _ _ _) fun _ _ => requireHealthy_refuses
  intro halt failed
  rcases checkTarget_error failed with first | second | third
  · exact image halt first
  · exact host halt second
  · exact cluster halt third

theorem required_refuses {name : String} {value : Option String} {e : RequestError}
    (failed : required name value = .error e) : (Halt.refused e).OfChecks := by
  unfold required at failed
  split at failed
  · split at failed <;> cases failed
    trivial
  · cases failed
    trivial

/-- What fails in two steps fails in one of them. -/
theorem bind_error {ε α β : Type} {P : ε → Prop} {value : Except ε α} {next : α → Except ε β}
    {e : ε} (first : value = .error e → P e) (second : ∀ found, next found = .error e → P e)
    (failed : value >>= next = .error e) : P e := by
  cases value with
  | error other =>
    cases failed
    exact first rfl
  | ok found => exact second found failed

theorem mapError_ok {ε δ α : Type} {value : Except ε α} {f : ε → δ} {found : α}
    (ok : value.mapError f = .ok found) : value = .ok found := by
  cases value with
  | ok =>
    cases ok
    rfl
  | error => cases ok

theorem DeployOrder.target_refuses {order : DeployOrder} {e : RequestError}
    (failed : order.target = .error e) : (Halt.refused e).OfChecks := by
  let P (e : RequestError) : Prop := (Halt.refused e).OfChecks
  refine bind_error (P := P) required_refuses (fun image failed => ?_) failed
  refine bind_error (P := P) required_refuses (fun host failed => ?_) failed
  refine bind_error (P := P) required_refuses (fun cluster failed => ?_) failed
  cases failed

/-- The forms that an order is recorded in: as it was given, or with the file of its image. -/
inductive DeployOrder.Stored (order : DeployOrder) : DeployOrder → Prop
  | asGiven : Stored order order
  | withFile (file : String) : Stored order (order.withImageFile file)

namespace DeployOrder.Stored

variable {order stored : DeployOrder}

/-- What is planned does not depend on the form. -/
theorem planInstances_eq (form : order.Stored stored) (limit : UInt32) :
    planInstances stored.text limit = planInstances order.text limit := by
  cases form with
  | asGiven => rfl
  | withFile file =>
    rw [planInstances_text, planInstances_text]
    rfl

theorem planInstances_ok (form : order.Stored stored) {limit : UInt32}
    (allowed : checkVmCount order.requested limit = .ok ()) :
    planInstances stored.text limit = .ok order.machines := by
  rw [form.planInstances_eq, planInstances_text, allowed]
  rfl

end DeployOrder.Stored

/-- A deployment is refused by a check, or it is allowed and recorded. -/
theorem PipelineConfig.deploy_check (config : PipelineConfig) (services : Services)
    (order : DeployOrder) (scope : Scope) :
    (∃ halt, (config.deploy services order scope).check.result = .error halt ∧ halt.OfChecks) ∨
    (checkVmCount order.requested config.admission.maxVmsPerDeploy = .ok () ∧
      ∃ stored, order.Stored stored ∧
        (config.deploy services order scope).check.result =
          .ok (config.recordDeploy scope stored)) := by
  unfold deploy
  cases count : checkVmCount order.requested config.admission.maxVmsPerDeploy with
  | error e =>
    refine .inl ⟨.refused e, rfl, ?_⟩
    unfold checkVmCount at count
    split at count <;> cases count
    trivial
  | ok =>
    by_cases enabled : config.validation.enabled
    · simp only [if_pos enabled]
      cases wanted : order.target with
      | error e => exact .inl ⟨.refused e, rfl, DeployOrder.target_refuses wanted⟩
      | ok target =>
        have proper := services.checkTarget_proper config.validation.lookupTimeout target
        cases found : (services.checkTarget config.validation.lookupTimeout target).check.result with
        | error halt =>
          have validated : (services.validateDeploy config.validation target).check.result =
              .error halt := by
            rw [Services.validateDeploy, if_pos enabled]
            exact Check.andThen_error found
          exact .inl ⟨halt, Check.andThen_error validated, proper halt found⟩
        | ok file =>
          have validated : (services.validateDeploy config.validation target).check.result =
              .ok (some file) := by
            rw [Services.validateDeploy, if_pos enabled]
            exact Check.andThen_ok found
          exact .inr ⟨trivial, order.withImageFile file, .withFile file, Check.andThen_ok validated⟩
    · simp only [if_neg enabled]
      exact .inr ⟨trivial, order, .asGiven, rfl⟩

namespace Submission

variable {α : Type} {submission : Submission α} {limit : Duration} {store : Store}

theorem run_refused {halt : Halt} (failed : submission.check.result = .error halt) :
    (submission.run limit store).result = .error halt ∧
      (submission.run limit store).store = store := by
  simp only [run, failed, and_self]

theorem run_passed {dialogue : Dialogue α} (passed : submission.check.result = .ok dialogue) :
    (submission.run limit store).result = (dialogue.effect limit store).1.mapError .refused ∧
      (submission.run limit store).store.ledger = (dialogue.effect limit store).2 := by
  simp only [run, passed]
  exact ⟨rfl, rfl⟩

theorem run_passed_store {dialogue : Dialogue α}
    (passed : submission.check.result = .ok dialogue) :
    (submission.run limit store).store = (dialogue.run limit store).store := by
  rw [run, passed]
  rfl

theorem run_ok_iff {value : α} :
    (submission.run limit store).result = .ok value ↔
      ∃ dialogue, submission.check.result = .ok dialogue ∧
        (dialogue.effect limit store).1 = .ok value := by
  cases passed : submission.check.result with
  | error halt => simp [(run_refused passed).1]
  | ok dialogue =>
    rw [(run_passed passed).1]
    constructor
    · intro ok
      exact ⟨dialogue, rfl, mapError_ok ok⟩
    · rintro ⟨_, ⟨⟩, ok⟩
      rw [ok]
      rfl

end Submission

/-- No deployment ends for a text that is malformed. -/
theorem PipelineConfig.deploy_ne_malformedInput (config : PipelineConfig) (services : Services)
    (order : DeployOrder) (scope : Scope) (limit : Duration) (store : Store) (e : Json.Error) :
    ((config.deploy services order scope).run limit store).result ≠
      .error (.refused (.malformedInput e)) := by
  intro malformed
  obtain ⟨halt, failed, proper⟩ | ⟨allowed, stored, form, passed⟩ :=
    config.deploy_check services order scope
  · rw [(Submission.run_refused failed).1] at malformed
    cases malformed
    exact proper
  have plan : planInstances (scope.newRequest .deploy .new stored.text).metadata
      config.admission.maxVmsPerDeploy = .ok order.machines := form.planInstances_ok allowed
  rw [(Submission.run_passed passed).1, recordDeploy] at malformed
  cases failed : ((recordRequest config.admission
      (scope.newRequest .deploy .new stored.text)).effect limit store).1 with
  | ok recorded =>
    rw [failed] at malformed
    cases malformed
  | error error =>
    obtain ⟨cause, rfl⟩ := recordRequest_error plan failed
    rw [failed] at malformed
    cases malformed

/-- The text of every order is read as what the order asks for, however it is nested and whatever
characters it has. The number of machines is refused when it is read exactly if it is refused
beforehand, also with the file of the image in the text; otherwise all machines are planned. So no
deployment ends for a text that is malformed, and one that is recorded was planned before. -/
theorem order_text_planned (order : DeployOrder) (limit : UInt32) :
    (∀ e, planInstances order.text limit ≠ .error (.malformedInput e)) ∧
    (∀ e, planInstances order.text limit = .error e ↔
      checkVmCount order.requested limit = .error e) ∧
    ((∃ r, planInstances order.text limit = .error (.validationFailed r)) ↔
      checkVmCount order.requested limit ≠ .ok ()) ∧
    (checkVmCount order.requested limit = .ok () →
      planInstances order.text limit = .ok order.machines) ∧
    (∀ file, planInstances (order.withImageFile file).text limit = planInstances order.text limit) ∧
    ∀ (config : PipelineConfig) (services : Services) (scope : Scope),
      (∀ wait store e, ((config.deploy services order scope).run wait store).result ≠
        .error (.refused (.malformedInput e))) ∧
      ∀ dialogue, (config.deploy services order scope).check.result = .ok dialogue →
        ∃ stored, order.Stored stored ∧ dialogue = config.recordDeploy scope stored ∧
          planInstances stored.text config.admission.maxVmsPerDeploy = .ok order.machines := by
  have text := planInstances_text order limit
  refine ⟨?_, ?_, ?_, ?_, ?_, fun config services scope => ⟨?_, ?_⟩⟩
  · intro e malformed
    cases count : checkVmCount order.requested limit with
    | error other =>
      obtain ⟨r, rfl⟩ := checkVmCount_error count
      rw [text, count] at malformed
      cases malformed
    | ok =>
      rw [text, count] at malformed
      cases malformed
  · intro e
    rw [text]
    cases checkVmCount order.requested limit <;> simp [Except.map]
  · rw [text]
    cases count : checkVmCount order.requested limit with
    | error e =>
      obtain ⟨r, rfl⟩ := checkVmCount_error count
      simp [Except.map]
    | ok => simp [Except.map]
  · intro allowed
    rw [text, allowed]
    rfl
  · exact fun file => (DeployOrder.Stored.withFile file).planInstances_eq limit
  · exact fun wait store e => config.deploy_ne_malformedInput services order scope wait store e
  · intro dialogue passed
    obtain ⟨halt, failed, -⟩ | ⟨allowed, stored, form, same⟩ :=
      config.deploy_check services order scope
    · cases failed.symm.trans passed
    · exact ⟨stored, form, Except.ok.inj (passed.symm.trans same), form.planInstances_ok allowed⟩

/-- A deployment that is recorded with all its machines. -/
structure Deployed (order : DeployOrder) (scope : Scope) (limit : UInt32) (before after : Ledger)
    (recorded : Recorded) : Prop where
  requests : after.requests = before.requests ++ [recorded.request]
  instances : after.instances = before.instances ++ recorded.instances
  /-- The id has not been used before. -/
  fresh : before.Fresh recorded.request.id
  operation : recorded.request.operation = .deploy
  status : recorded.request.status = .new
  workspaceId : recorded.request.workspaceId = scope.workspaceId
  datacenterId : recorded.request.datacenterId = scope.datacenterId
  metadata : ∃ stored, order.Stored stored ∧ recorded.request.metadata = stored.text
  /-- All machines are there, in order, and none of them has been begun. -/
  machines : recorded.instances = (List.range order.size).map fun i => {
    requestId := recorded.request.id
    vmName := order.vmConfig.name ++ "_" ++ toString (i + 1)
    vmId := ""
    status := .init
    stateMessage := ""
    completedAt := none }
  allowed : order.size ≤ limit.toNat

theorem deployed_of_all {order stored : DeployOrder} {scope : Scope} {limit : UInt32}
    {before : Ledger} {recorded : Recorded} {stamp : Stamp} {writes : Nat}
    (form : order.Stored stored) (allowed : checkVmCount order.requested limit = .ok ())
    (fresh : before.Fresh stamp.id)
    (request : recorded.request = (scope.newRequest .deploy .new stored.text).row stamp)
    (instances : recorded.instances = order.machines.map (·.row recorded.request.id)) :
    Deployed order scope limit before (before.deployed recorded order.machines writes)
      recorded where
  requests := rfl
  instances := rfl
  fresh := request ▸ fresh
  operation := request ▸ rfl
  status := request ▸ rfl
  workspaceId := request ▸ rfl
  datacenterId := request ▸ rfl
  metadata := ⟨stored, form, request ▸ rfl⟩
  machines := instances.trans (List.map_map ..)
  allowed := by
    have most := checkVmCount_ok_iff.mp allowed
    rw [DeployOrder.size]
    omega

/-- Services whose lookups all take the same time and come to the same. -/
def Services.uniform (latency : Latency) (reply : {α : Type} → Reply α) : Services :=
  ⟨⟨latency, reply⟩, ⟨latency, reply⟩, ⟨latency, reply⟩, fun _ => ⟨latency, reply⟩⟩

/-- An order for some machines, and nothing else in it. -/
def DeployOrder.ofMachines (name : String) (count : Int64) : DeployOrder :=
  { destination := {}, imageSource := {}, vmConfig := { name, numberOfVms := some count } }

namespace PipelineConfig

/-- The order passed the checks and its request was written, and the call that was to write its
machines then failed. -/
def HalfDone (config : PipelineConfig) (services : Services) (order : DeployOrder) (scope : Scope)
    (store : Store) (request : RequestRow) (e : StoreError) : Prop :=
  ∃ stored, order.Stored stored ∧
    (config.deploy services order scope).check.result = .ok (config.recordDeploy scope stored) ∧
    HalfWritten config.admission store (scope.newRequest .deploy .new stored.text) order.machines
      request e

section

variable {config : PipelineConfig} {services : Services} {order : DeployOrder} {scope : Scope}
  {store : Store}

/-- A deployment is refused by a check, with the store as it was, or its recording decides. -/
theorem deploy_end (memory : store.backend = .memory) :
    let attempt := (config.deploy services order scope).run config.admission.storeTimeout store
    (∃ halt, attempt.result = .error halt ∧ attempt.store = store) ∨
    (checkVmCount order.requested config.admission.maxVmsPerDeploy = .ok () ∧
      ∃ stored, order.Stored stored ∧
        (config.deploy services order scope).check.result = .ok (config.recordDeploy scope stored) ∧
        ∃ result after,
          DeploymentEnd config.admission store (scope.newRequest .deploy .new stored.text)
            order.machines (result, after) ∧
          attempt.result = result.mapError .refused ∧ attempt.store.ledger = after) := by
  intro attempt
  obtain ⟨halt, failed, -⟩ | ⟨allowed, stored, form, passed⟩ :=
    config.deploy_check services order scope
  · exact .inl ⟨halt, Submission.run_refused failed⟩
  have plan : planInstances (scope.newRequest .deploy .new stored.text).metadata
      config.admission.maxVmsPerDeploy = .ok order.machines := form.planInstances_ok allowed
  exact .inr ⟨allowed, stored, form, passed, _, _, recordRequest_end memory rfl plan,
    Submission.run_passed passed⟩

theorem HalfDone.attempt {request : RequestRow} {e : StoreError}
    (half : config.HalfDone services order scope store request e)
    (memory : store.backend = .memory) :
    let attempt := (config.deploy services order scope).run config.admission.storeTimeout store
    attempt.result = .error (.refused (.storage e)) ∧
      attempt.store.ledger = store.ledger.deployed ⟨request, []⟩ [] 1 := by
  intro attempt
  obtain ⟨stored, form, passed, half⟩ := half
  obtain ⟨halt, failed, -⟩ | ⟨allowed, -⟩ := config.deploy_check services order scope
  · cases failed.symm.trans passed
  have plan : planInstances (scope.newRequest .deploy .new stored.text).metadata
      config.admission.maxVmsPerDeploy = .ok order.machines := form.planInstances_ok allowed
  have effect : (config.recordDeploy scope stored).effect config.admission.storeTimeout store = _ :=
    half.effect memory rfl plan
  obtain ⟨result, ledger⟩ := Submission.run_passed passed
  exact ⟨result.trans (by rw [effect]; rfl), ledger.trans (by rw [effect])⟩

/-- In an open store in which nothing fails, an order that is within the limit is recorded with all
its machines, if nothing is checked before. -/
theorem deploy_ok_of_open (isOpen : store.Open) (sound : store.ledger.Sound)
    (fresh : store.ledger.Fresh store.nextStamp.id) (faultless : store.ledger.faults = {})
    (unchecked : config.validation.enabled = false)
    (allowed : checkVmCount order.requested config.admission.maxVmsPerDeploy = .ok ()) :
    let new := scope.newRequest .deploy .new order.text
    ((config.deploy services order scope).run config.admission.storeTimeout store).result =
      .ok (new.recorded order.machines store.nextStamp) := by
  intro new
  have passed : (config.deploy services order scope).check.result =
      .ok (config.recordDeploy scope order) := by
    simp only [deploy, allowed, unchecked, Bool.false_eq_true, if_false]
  have plan : planInstances new.metadata config.admission.maxVmsPerDeploy = .ok order.machines :=
    DeployOrder.Stored.asGiven.planInstances_ok allowed
  have recorded : ((config.recordDeploy scope order).effect config.admission.storeTimeout store).1 =
      .ok (new.recorded order.machines store.nextStamp) :=
    recordRequest_open isOpen sound fresh faultless rfl plan
  rw [(Submission.run_passed passed).1, recorded]
  rfl

end

/-- What a deployment does to the ledger. If it succeeds, its request and all its machines are
added, and nothing else. If it fails, the ledger is as it was, unless the deployment is half done,
which takes two calls and ends in a failure of the store; then the request alone is added. -/
theorem deploy_writes {stamps : Nat → Stamp} {store : Store} (reach : StoreReach stamps store)
    (distinct : DistinctIds stamps (store.issued + 1)) (config : PipelineConfig)
    (services : Services) (order : DeployOrder) (scope : Scope) :
    let attempt := (config.deploy services order scope).run config.admission.storeTimeout store
    (∀ recorded, attempt.result = .ok recorded →
      Deployed order scope config.admission.maxVmsPerDeploy store.ledger attempt.store.ledger
        recorded) ∧
    (∀ request e, config.HalfDone services order scope store request e →
      config.admission.atomic = false ∧ attempt.result = .error (.refused (.storage e)) ∧
        attempt.store.ledger.requests = store.ledger.requests ++ [request] ∧
        attempt.store.ledger.instances = store.ledger.instances ∧
        attempt.store.ledger.writes = store.ledger.writes + 1) ∧
    (∀ halt, attempt.result = .error halt →
      (¬ ∃ request e, config.HalfDone services order scope store request e) →
      attempt.store.ledger = store.ledger) ∧
    (∀ halt, attempt.result = .error halt → config.admission.atomic →
      attempt.store.ledger = store.ledger) ∧
    (∀ halt, attempt.result = .error halt → (∀ e, halt ≠ .refused (.storage e)) →
      attempt.store.ledger = store.ledger) := by
  intro attempt
  have memory := reach.backend
  have unchanged : ∀ halt, attempt.result = .error halt →
      (¬ ∃ request e, config.HalfDone services order scope store request e) →
      attempt.store.ledger = store.ledger := by
    intro halt failed whole
    obtain ⟨_, -, same⟩ | ⟨-, stored, form, passed, result, after, ending, same, ledger⟩ :=
      deploy_end memory
    · exact congrArg Store.ledger same
    cases ending with
    | all => cases failed.symm.trans same
    | nothing => exact ledger
    | requestOnly half => exact absurd ⟨_, _, stored, form, passed, half⟩ whole
  refine ⟨?_, ?_, unchanged, ?_, ?_⟩
  · intro recorded ok
    obtain ⟨_, failed, -⟩ | ⟨allowed, stored, form, -, result, after, ending, same, ledger⟩ :=
      deploy_end memory
    · cases failed.symm.trans ok
    cases ending with
    | all found writes request instances =>
      cases ok.symm.trans same
      rw [ledger]
      exact deployed_of_all form allowed (reach.fresh distinct) request instances
    | nothing => cases ok.symm.trans same
    | requestOnly => cases ok.symm.trans same
  · intro request e half
    obtain ⟨result, ledger⟩ := half.attempt memory
    obtain ⟨stored, -, -, written⟩ := half
    refine ⟨written.inTurn, result, ?_, ?_, ?_⟩
    · exact congrArg Ledger.requests ledger
    · exact (congrArg Ledger.instances ledger).trans (List.append_nil _)
    · exact congrArg Ledger.writes ledger
  · intro halt failed atomic
    refine unchanged halt failed ?_
    rintro ⟨request, e, stored, -, -, half⟩
    exact Bool.noConfusion (half.inTurn.symm.trans atomic)
  · intro halt failed other
    refine unchanged halt failed ?_
    rintro ⟨request, e, half⟩
    obtain ⟨result, -⟩ := half.attempt memory
    exact other e (Except.error.inj (failed.symm.trans result))

/-- Two machines, recorded in a new store after their request. -/
theorem deploy_writes_web :
    let config : PipelineConfig := {}
    let order : DeployOrder := .ofMachines "web" 2
    let services : Services := .uniform .none .crash
    let store : Store := { stamps := Stamp.numbered }
    let attempt := (config.deploy services order {}).run config.admission.storeTimeout store
    StoreReach Stamp.numbered store ∧ DistinctIds Stamp.numbered (store.issued + 1) ∧
      ∃ recorded, attempt.result = .ok recorded ∧
        Deployed order {} config.admission.maxVmsPerDeploy store.ledger attempt.store.ledger
          recorded ∧
        recorded.instances.map (·.vmName) = ["web_1", "web_2"] := by
  intro config order services store attempt
  have reach : StoreReach Stamp.numbered store := .start
  have distinct : DistinctIds Stamp.numbered (store.issued + 1) := distinctIds_numbered (by decide)
  have result : attempt.result = .ok _ :=
    deploy_ok_of_open ⟨rfl, rfl⟩ reach.sound (reach.fresh distinct) rfl rfl rfl
  have writes := deploy_writes reach distinct config services order {}
  exact ⟨reach, distinct, _, result, writes.1 _ result, by decide⟩

end PipelineConfig

end VmAdmission
