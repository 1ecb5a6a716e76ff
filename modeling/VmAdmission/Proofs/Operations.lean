import VmAdmission.Proofs.Interleaving
import VmAdmission.Proofs.Text.Ascii

namespace VmAdmission

/-- The power state is one of those of a machine that is off, whatever the case of its letters and
with whatever characters between its letters and digits. -/
def ReadsOff (powerState : String) : Prop :=
  ∃ word ∈ ["POWEROFF", "POWEREDOFF", "OFF"],
    Ascii.alike (String.ofList (powerState.toList.filter Char.isAlphanum)) word

theorem isPoweredOff_iff {powerState : String} :
    isPoweredOff powerState = true ↔ ReadsOff powerState := by
  have upper : ∀ word ∈ ["POWEROFF", "POWEREDOFF", "OFF"],
      word.toList.map Char.toUpper = word.toList := by decide
  simp only [isPoweredOff, ReadsOff, List.contains_iff_mem]
  constructor
  · intro listed
    refine ⟨_, listed, Ascii.alike_iff_upper.mpr ?_⟩
    rw [upper _ listed, essence, String.toList_ofList, String.toList_ofList]
  · rintro ⟨word, listed, alike⟩
    have same := Ascii.alike_iff_upper.mp alike
    rw [upper word listed, String.toList_ofList] at same
    rw [essence, same, String.ofList_toList]
    exact listed

theorem requirePower_refuses_iff {operation : Operation} {metrics : VmMetrics} :
    (∃ halt, (requirePower operation metrics).mapError Halt.refused = .error halt) ↔
      operation = .reconfigure ∧ ReadsOff metrics.powerState := by
  rw [requirePower, ← isPoweredOff_iff]
  split
  · rename_i off
    exact ⟨fun _ => off, fun _ => ⟨_, rfl⟩⟩
  · rename_i on
    refine ⟨?_, fun off => absurd off on⟩
    rintro ⟨halt, ⟨⟩⟩

/-- The time that a machine has to tell its state, which depends on the policy. -/
def ValidationConfig.vmTimeout (config : ValidationConfig) : Duration :=
  match config.vmPolicy with
  | .strict => config.strictVmTimeout
  | .bestEffort => config.bestEffortVmTimeout

/-- A machine that tells its state in time is judged by it alone, under either policy. -/
theorem Services.validateVm_answered {services : Services} {config : ValidationConfig}
    {vmId : String} {operation : Operation} {metrics : VmMetrics} {elapsed : Duration}
    (enabled : config.enabled = true)
    (inTime : (services.vm vmId).latency.within? config.vmTimeout = some elapsed)
    (answered : (services.vm vmId).reply = .answer metrics) :
    (services.validateVm config vmId operation).check.result =
      (requirePower operation metrics).mapError .refused := by
  rw [validateVm, if_pos enabled]
  cases policy : config.vmPolicy with
  | strict =>
    simp only [ValidationConfig.vmTimeout, policy] at inTime
    simp only [checkVmStrictly, inTime, answered]
  | bestEffort =>
    simp only [ValidationConfig.vmTimeout, policy] at inTime
    simp only [checkVmLeniently, inTime, answered]

/-- New requests are written within the limit. -/
structure Store.WritesRequests (store : Store) (limit : Duration) : Prop extends
    store.LetsThrough limit .createRequest where
  faultless : store.ledger.faults.requestWrites = false

section

variable {store : Store} {limit : Duration} {new : NewRequest}

theorem Store.writesRequests_iff (memory : store.backend = .memory) :
    (∃ row, (store.answerWithin limit (.createRequest new)).outcome = .ok row) ↔
      store.WritesRequests limit := by
  have performed : (Call.createRequest new).perform store.nextStamp store.ledger = _ :=
    Call.perform_createRequest new
  constructor
  · rintro ⟨row, ok⟩
    obtain ⟨made, -⟩ := answerWithin_ok memory ok
    refine ⟨letsThrough_of_ok ok, Bool.eq_false_iff.mpr fun failing => ?_⟩
    rw [performed, if_pos failing] at made
    cases made
  · intro writes
    have through : store.LetsThrough limit (Call.createRequest new).method := writes.toLetsThrough
    have answered := through.answerWithin memory
    rw [performed, writes.faultless] at answered
    exact ⟨_, answered.1⟩

/-- A request that is no deployment is recorded exactly if the store writes it. -/
theorem recordRequest_other_ok_iff {config : AdmissionConfig} (memory : store.backend = .memory)
    (other : new.operation ≠ .deploy) :
    (∃ recorded, ((recordRequest config new).effect limit store).1 = .ok recorded) ↔
      store.WritesRequests limit := by
  have inTurn : recordRequest config new = recordInTurn config.maxVmsPerDeploy new :=
    if_neg fun both => other both.1
  rw [← store.writesRequests_iff memory, inTurn, recordInTurn]
  cases outcome : (store.answerWithin limit (.createRequest new)).outcome with
  | error e => simp [Dialogue.effect_ask_error outcome]
  | ok row => simp [Dialogue.effect_ask_ok outcome, other]

end

theorem Preflight.andThen_ok_iff {α β : Type} {preflight : Preflight α} {next : α → β} {result : β} :
    (preflight.andThen next).check.result = .ok result ↔
      ∃ value, preflight.check.result = .ok value ∧ result = next value := by
  cases found : preflight.check.result with
  | error halt => simp [andThen, Check.andThen, found]
  | ok value => simp [andThen, Check.andThen, found, Except.mapError, eq_comm]

namespace PipelineConfig

/-- An operation that is recorded: its own request, which is new, and no machine. -/
structure Operated (operation : Operation) (order : VmOrder) (scope : Scope)
    (before after : Ledger) (recorded : Recorded) : Prop where
  requests : after.requests = before.requests ++ [recorded.request]
  instances : after.instances = before.instances
  bare : recorded.instances = []
  /-- The id has not been used before. -/
  fresh : before.Fresh recorded.request.id
  operation : recorded.request.operation = operation
  status : recorded.request.status = .new
  workspaceId : recorded.request.workspaceId = scope.workspaceId
  datacenterId : recorded.request.datacenterId = scope.datacenterId
  metadata : recorded.request.metadata = order.text

variable {config : PipelineConfig} {services : Services} {operation : Operation} {order : VmOrder}
  {scope : Scope}

theorem submit_deploy : config.submit services .deploy order scope =
    .refuse (.internal .deployWithoutOrder) :=
  if_pos rfl

/-- When an operation passes, and what is done then. -/
theorem submit_passed_iff (other : operation ≠ .deploy) {dialogue : Dialogue Recorded} :
    (config.submit services operation order scope).check.result = .ok dialogue ↔
      order.vmId ∉ namelessIds ∧
      (services.validateVm config.validation order.vmId operation).check.result = .ok () ∧
      dialogue = recordRequest config.admission (scope.newRequest operation .new order.text) := by
  rw [submit, if_neg other]
  by_cases nameless : order.vmId ∈ namelessIds
  · rw [if_pos nameless]
    simp [nameless, Submission.refuse]
  rw [if_neg nameless, Preflight.andThen_ok_iff]
  constructor
  · rintro ⟨⟨⟩, validated, rfl⟩
    exact ⟨nameless, validated, rfl⟩
  · rintro ⟨-, validated, rfl⟩
    exact ⟨(), validated, rfl⟩

theorem validateVm_disabled {vmId : String} (disabled : config.validation.enabled = false) :
    (services.validateVm config.validation vmId operation).check.result = .ok () := by
  rw [Services.validateVm, if_neg (by simp [disabled])]

variable {store : Store}

theorem submit_ok_iff (memory : store.backend = .memory) (other : operation ≠ .deploy) :
    (∃ recorded, ((config.submit services operation order scope).run config.admission.storeTimeout
        store).result = .ok recorded) ↔
      order.vmId ∉ namelessIds ∧
      (services.validateVm config.validation order.vmId operation).check.result = .ok () ∧
      store.WritesRequests config.admission.storeTimeout := by
  let new := scope.newRequest operation .new order.text
  have writes : (∃ recorded, ((recordRequest config.admission new).effect
      config.admission.storeTimeout store).1 = .ok recorded) ↔
      store.WritesRequests config.admission.storeTimeout :=
    recordRequest_other_ok_iff memory other
  rw [← writes]
  simp only [Submission.run_ok_iff, submit_passed_iff other]
  constructor
  · rintro ⟨recorded, _, ⟨named, validated, rfl⟩, ok⟩
    exact ⟨named, validated, recorded, ok⟩
  · rintro ⟨named, validated, recorded, ok⟩
    exact ⟨recorded, _, ⟨named, validated, rfl⟩, ok⟩

/-- What is done of an operation on a machine: nothing, or it is recorded. -/
theorem submit_effect {stamps : Nat → Stamp} (reach : StoreReach stamps store)
    (distinct : DistinctIds stamps (store.issued + 1)) (config : PipelineConfig)
    (services : Services) (operation : Operation) (order : VmOrder) (scope : Scope) :
    let attempt :=
      (config.submit services operation order scope).run config.admission.storeTimeout store
    (∃ halt, attempt.result = .error halt ∧ attempt.store.ledger = store.ledger) ∨
    ∃ recorded, attempt.result = .ok recorded ∧
      Operated operation order scope store.ledger attempt.store.ledger recorded := by
  intro attempt
  obtain ⟨halt, failed⟩ | ⟨other, passed⟩ :=
    Order.submit_check config services operation order scope
  · obtain ⟨result, same⟩ := Submission.run_refused failed
    exact .inl ⟨halt, result, congrArg Store.ledger same⟩
  obtain ⟨result, ledger⟩ : attempt.result = _ ∧ attempt.store.ledger = _ :=
    Submission.run_passed passed
  have ending : DeploymentEnd config.admission store (scope.newRequest operation .new order.text) []
      _ := recordRequest_other_end reach.backend other
  revert result ledger
  generalize (recordRequest config.admission (scope.newRequest operation .new order.text)).effect
    config.admission.storeTimeout store = effect at ending
  intro result ledger
  cases ending with
  | all recorded writes row machines =>
    refine .inr ⟨recorded, result, ?_⟩
    rw [ledger]
    exact {
      requests := rfl
      instances := by rw [Ledger.deployed, machines]; exact List.append_nil _
      bare := machines
      fresh := row ▸ reach.fresh distinct
      operation := row ▸ rfl
      status := row ▸ rfl
      workspaceId := row ▸ rfl
      datacenterId := row ▸ rfl
      metadata := row ▸ rfl }
  | nothing e => exact .inl ⟨_, result, ledger⟩
  | requestOnly half => exact absurd rfl half.needed

/-- What becomes of an operation on a machine. It is recorded exactly if its machine has a name, the
checks are disabled or passed, and the store writes the request in time; then just its request is
added. Otherwise the ledger is as it was. A machine that tells its state in time is refused exactly
if it is to be reconfigured and says that it is off, under either policy. A deployment is no such
operation: it fails with nothing looked up and nothing written. -/
theorem submit_writes {stamps : Nat → Stamp} (reach : StoreReach stamps store)
    (distinct : DistinctIds stamps (store.issued + 1)) (config : PipelineConfig)
    (services : Services) (operation : Operation) (order : VmOrder) (scope : Scope) :
    let attempt :=
      (config.submit services operation order scope).run config.admission.storeTimeout store
    let validated := (services.validateVm config.validation order.vmId operation).check.result
    (operation ≠ .deploy → ((∃ recorded, attempt.result = .ok recorded) ↔
      order.vmId ∉ ["", ".", ".."] ∧
      (config.validation.enabled = false ∨ validated = .ok ()) ∧
      store.WritesRequests config.admission.storeTimeout)) ∧
    (∀ recorded, attempt.result = .ok recorded →
      Operated operation order scope store.ledger attempt.store.ledger recorded) ∧
    (∀ halt, attempt.result = .error halt → attempt.store.ledger = store.ledger) ∧
    (∀ metrics elapsed, config.validation.enabled = true →
      (services.vm order.vmId).latency.within? config.validation.vmTimeout = some elapsed →
      (services.vm order.vmId).reply = .answer metrics →
      ((∃ halt, validated = .error halt) ↔
        operation = .reconfigure ∧ ReadsOff metrics.powerState)) ∧
    (operation = .deploy → (∃ halt, attempt.result = .error halt) ∧ attempt.lookups = [] ∧
      attempt.store = store) := by
  intro attempt validated
  have effect := submit_effect reach distinct config services operation order scope
  refine ⟨fun other => ?_, fun recorded ok => ?_, fun halt failed => ?_,
    fun metrics elapsed enabled inTime answered => ?_, ?_⟩
  · have passes : validated = .ok () ↔ config.validation.enabled = false ∨ validated = .ok () :=
      ⟨.inr, fun either => either.elim validateVm_disabled id⟩
    rw [← passes]
    exact submit_ok_iff reach.backend other
  · obtain ⟨halt, failed, -⟩ | ⟨other, same, operated⟩ := effect
    · cases failed.symm.trans ok
    · cases same.symm.trans ok
      exact operated
  · obtain ⟨_, -, same⟩ | ⟨recorded, ok, -⟩ := effect
    · exact same
    · cases failed.symm.trans ok
  · have judged : validated = _ := Services.validateVm_answered enabled inTime answered
    rw [judged]
    exact requirePower_refuses_iff
  · rintro rfl
    have refused : attempt = _ := congrArg
      (fun submission : Submission Recorded => submission.run config.admission.storeTimeout store)
      submit_deploy
    rw [refused]
    exact ⟨⟨_, rfl⟩, rfl, rfl⟩

/-- A machine that says that it is off, in a spelling of its own, is powered on but not
reconfigured. -/
theorem submit_writes_off :
    let config : PipelineConfig := { validation := { enabled := true, vmPolicy := .bestEffort } }
    let services : Services :=
      { Services.uniform .none .crash with
        vm := fun id => ⟨.after ⟨10⟩, .answer ⟨some id, "Powered-Off", default⟩⟩ }
    let store : Store := { stamps := Stamp.numbered }
    let attempt (operation : Operation) :=
      (config.submit services operation ⟨"vm-1", none⟩ {}).run config.admission.storeTimeout store
    StoreReach Stamp.numbered store ∧ DistinctIds Stamp.numbered (store.issued + 1) ∧
      (∃ halt, (attempt .reconfigure).result = .error halt) ∧
      (attempt .reconfigure).store.ledger = store.ledger ∧
      ∃ recorded, (attempt .powerOn).result = .ok recorded ∧
        Operated .powerOn ⟨"vm-1", none⟩ {} store.ledger (attempt .powerOn).store.ledger
          recorded := by
  intro config services store attempt
  have reach : StoreReach Stamp.numbered store := .start
  have distinct : DistinctIds Stamp.numbered (store.issued + 1) := distinctIds_numbered (by decide)
  have off : ReadsOff "Powered-Off" := ⟨"POWEREDOFF", by simp, by decide⟩
  have writes : store.WritesRequests config.admission.storeTimeout := ⟨⟨by decide, rfl⟩, rfl⟩
  obtain ⟨recorded, -, unchanged, refuses, -⟩ :=
    submit_writes reach distinct config services .reconfigure ⟨"vm-1", none⟩ {}
  obtain ⟨reason, refused⟩ := (refuses _ _ rfl rfl rfl).mpr ⟨rfl, off⟩
  obtain ⟨alsoRecorded, operated, -⟩ :=
    submit_writes reach distinct config services .powerOn ⟨"vm-1", none⟩ {}
  obtain ⟨row, ok⟩ := (alsoRecorded (by decide)).mpr ⟨by decide, .inr rfl, writes⟩
  obtain ⟨halt, failed⟩ : ∃ halt, (attempt .reconfigure).result = .error halt := by
    cases result : (attempt .reconfigure).result with
    | error halt => exact ⟨halt, rfl⟩
    | ok other =>
      obtain ⟨-, passed, -⟩ := (recorded (by decide)).mp ⟨other, result⟩
      rcases passed with disabled | passed
      · cases disabled
      · cases refused.symm.trans passed
  exact ⟨reach, distinct, ⟨halt, failed⟩, unchanged halt failed, row, ok, operated row ok⟩

end PipelineConfig

end VmAdmission
