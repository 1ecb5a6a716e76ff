import VmAdmission.Proofs.Deployments
import VmAdmission.Proofs.Operations

namespace VmAdmission

/-- What a store does with a call: how long it takes, what it comes to, and what the store is
afterwards, or when the call is given up. -/
structure Handling (σ : Type) (call : Call) where
  latency : Latency
  outcome : call.Outcome
  after : σ
  givenUp : σ

/-- How a store of any kind behaves in each of its states. -/
abbrev Conduct (σ : Type) := σ → (call : Call) → Handling σ call

/-- What came of something that was done with a store of any kind, and how long it took. -/
structure Ended (σ ρ : Type) where
  elapsed : Duration
  result : ρ
  store : σ

/-- Later by a time. -/
def Ended.delay {σ ρ : Type} (ended : Ended σ ρ) (d : Duration) : Ended σ ρ :=
  { ended with elapsed := ⟨d.millis + ended.elapsed.millis⟩ }

/-- Makes a call, waiting no longer than the limit. -/
def Conduct.answerWithin {σ : Type} (conduct : Conduct σ) (limit : Duration) (store : σ)
    (call : Call) : Ended σ call.Outcome :=
  let handling := conduct store call
  match handling.latency.within? limit with
  | some elapsed => ⟨elapsed, handling.outcome, handling.after⟩
  | none => ⟨limit, .error (.unavailable (.tooSlow limit)), handling.givenUp⟩

/-- Runs a dialogue with a store of any kind, with a limit on each call. -/
def Dialogue.runOn {σ α : Type} (conduct : Conduct σ) (limit : Duration) :
    Dialogue α → σ → Ended σ (Except RequestError α)
  | done result, store => ⟨⟨0⟩, result, store⟩
  | call c resume, store =>
    let answered := conduct.answerWithin limit store c
    (runOn conduct limit (resume answered.result) answered.store).delay answered.elapsed
  | both c d resume, store =>
    let first := conduct.answerWithin limit store c
    let second := conduct.answerWithin limit first.store d
    (runOn conduct limit (resume first.result second.result) second.store).delay
      ⟨max first.elapsed.millis second.elapsed.millis⟩

/-- Goes through with an order over a store of any kind. -/
def Submission.runOn {σ α : Type} (conduct : Conduct σ) (submission : Submission α)
    (limit : Duration) (store : σ) : Ended σ (Except Halt α) :=
  match submission.check.result with
  | .error halt => ⟨submission.check.elapsed, .error halt, store⟩
  | .ok dialogue =>
    let ended := (dialogue.runOn conduct limit store).delay submission.check.elapsed
    ⟨ended.elapsed, ended.result.mapError .refused, ended.store⟩

/-- How a store behind its gates behaves: a call that is given up has had no effect. -/
def Store.conduct : Conduct Store := fun store call => {
  latency := (store.gates call.method).latency
  outcome := (store.answer call).1
  after := (store.answer call).2
  givenUp := store }

theorem Store.conduct_answerWithin (limit : Duration) (store : Store) (call : Call) :
    Store.conduct.answerWithin limit store call =
      let answered := store.answerWithin limit call
      ⟨answered.elapsed, answered.outcome, answered.store⟩ := by
  simp only [Conduct.answerWithin, Store.conduct, Store.answerWithin]
  cases (store.gates call.method).latency.within? limit <;> rfl

/-- The store behind its gates is one of the stores that there can be. -/
theorem Dialogue.runOn_store {α : Type} (limit : Duration) (dialogue : Dialogue α) (store : Store) :
    dialogue.runOn Store.conduct limit store =
      let finished := dialogue.run limit store
      ⟨finished.elapsed, finished.result, finished.store⟩ := by
  induction dialogue generalizing store with
  | done result => rfl
  | call c resume ih =>
    simp only [runOn, Store.conduct_answerWithin, ih]
    rfl
  | both c d resume ih =>
    simp only [runOn, Store.conduct_answerWithin, ih]
    rfl

theorem Submission.runOn_store {α : Type} (submission : Submission α) (limit : Duration)
    (store : Store) :
    submission.runOn Store.conduct limit store =
      let attempt := submission.run limit store
      ⟨attempt.elapsed, attempt.result, attempt.store⟩ := by
  simp only [runOn, run, Dialogue.runOn_store]
  cases submission.check.result <;> rfl

namespace Dialogue

/-- No more than so many calls are made one after the other, whatever they are answered with. -/
inductive Rounds {α : Type} : Nat → Dialogue α → Prop
  | done {n : Nat} (result : Except RequestError α) : Rounds n (.done result)
  | call {n : Nat} {c : Call} {resume : c.Outcome → Dialogue α}
      (next : ∀ outcome, Rounds n (resume outcome)) : Rounds (n + 1) (.call c resume)
  | both {n : Nat} {c d : Call} {resume : c.Outcome → d.Outcome → Dialogue α}
      (next : ∀ outcome other, Rounds n (resume outcome other)) : Rounds (n + 1) (.both c d resume)

namespace Rounds

variable {α β : Type} {n : Nat}

theorem ask {c : Call} {next : c.Answer → Dialogue α} (rounds : ∀ answer, Rounds n (next answer)) :
    Rounds (n + 1) (Dialogue.ask c next) := by
  refine .call fun outcome => ?_
  cases outcome with
  | ok answer => exact rounds answer
  | error e => exact .done _

theorem given {value : Except RequestError α} {next : α → Dialogue β}
    (rounds : ∀ found, Rounds n (next found)) : Rounds n (Dialogue.given value next) := by
  cases value with
  | ok found => exact rounds found
  | error e => exact .done _

end Rounds

end Dialogue

theorem Latency.within?_le {latency : Latency} {limit elapsed : Duration}
    (inTime : latency.within? limit = some elapsed) : elapsed.millis ≤ limit.millis := by
  cases latency with
  | never => cases inTime
  | after d =>
    rw [within?] at inTime
    split at inTime
    · cases inTime
      assumption
    · cases inTime

section

variable {σ α : Type} (conduct : Conduct σ) (limit : Duration)

theorem Conduct.answerWithin_le (store : σ) (call : Call) :
    (conduct.answerWithin limit store call).elapsed.millis ≤ limit.millis := by
  simp only [answerWithin]
  cases inTime : (conduct store call).latency.within? limit with
  | none => exact Nat.le_refl _
  | some elapsed => exact Latency.within?_le inTime

/-- Each round takes no longer than the limit. -/
theorem Dialogue.Rounds.elapsed_le {n : Nat} {dialogue : Dialogue α} (rounds : dialogue.Rounds n)
    (store : σ) : (dialogue.runOn conduct limit store).elapsed.millis ≤ n * limit.millis := by
  induction rounds generalizing store with
  | done result => exact Nat.zero_le _
  | @call n c resume next ih =>
    have first := conduct.answerWithin_le limit store c
    have rest := ih (conduct.answerWithin limit store c).result
      (conduct.answerWithin limit store c).store
    rw [Nat.succ_mul]
    simp only [runOn, Ended.delay]
    omega
  | @both n c d resume next ih =>
    have first := conduct.answerWithin_le limit store c
    have second := conduct.answerWithin_le limit (conduct.answerWithin limit store c).store d
    have rest := ih (conduct.answerWithin limit store c).result
      (conduct.answerWithin limit (conduct.answerWithin limit store c).store d).result
      (conduct.answerWithin limit (conduct.answerWithin limit store c).store d).store
    rw [Nat.succ_mul]
    simp only [runOn, Ended.delay]
    omega

/-- An order takes no longer than its checks and the rounds of its recording. -/
theorem Submission.elapsed_le {n d : Nat} {submission : Submission α}
    (checked : submission.check.elapsed.millis ≤ d)
    (rounds : ∀ dialogue, submission.check.result = .ok dialogue → dialogue.Rounds n) (store : σ) :
    (submission.runOn conduct limit store).elapsed.millis ≤ d + n * limit.millis := by
  unfold runOn
  split
  · exact Nat.le_trans checked (Nat.le_add_right _ _)
  · rename_i dialogue passed
    exact Nat.add_le_add checked ((rounds dialogue passed).elapsed_le conduct limit store)

end

section

variable {most : UInt32} {new : NewRequest}

theorem recordInstances_rounds (request : RequestRow) (metadata : String) :
    (recordInstances most request metadata).Rounds 1 := by
  refine .given fun planned => ?_
  split
  · exact .done _
  · exact .ask fun _ => .done _

theorem recordAtOnce_rounds : (recordAtOnce most new).Rounds 1 :=
  .given fun _ => .ask fun _ => .done _

theorem recordInTurn_rounds : (recordInTurn most new).Rounds 2 := by
  refine .ask fun request => ?_
  split
  · exact recordInstances_rounds request new.metadata
  · exact .done _

theorem recordRequest_deploy_rounds (config : AdmissionConfig) (deploy : new.operation = .deploy) :
    (recordRequest config new).Rounds (if config.atomic then 1 else 2) := by
  unfold recordRequest
  by_cases atomic : config.atomic
  · simp only [deploy, atomic, and_self, if_true]
    exact recordAtOnce_rounds
  · simp only [atomic, and_false, Bool.false_eq_true, if_false]
    exact recordInTurn_rounds

theorem recordRequest_other_rounds (config : AdmissionConfig) (other : new.operation ≠ .deploy) :
    (recordRequest config new).Rounds 1 := by
  unfold recordRequest
  rw [if_neg fun both => other both.1]
  refine .ask fun request => ?_
  rw [if_neg other]
  exact .done _

end

theorem findRequest_rounds (id : Uuid) : (findRequest id).Rounds 2 := by
  refine .call fun outcome => ?_
  cases outcome with
  | ok request => exact .call fun machines => .given fun rows => .done _
  | error e => cases e <;> exact .done _

theorem listRequests_rounds : listRequests.Rounds 1 :=
  .both fun _ _ => .given fun _ => .given fun _ => .done _

theorem Behaviour.check_elapsed_le {α : Type} (behaviour : Behaviour α) (service : Service)
    (limit : Duration) : (behaviour.check service limit).elapsed.millis ≤ limit.millis := by
  unfold check
  cases inTime : behaviour.latency.within? limit with
  | none => exact Nat.le_refl _
  | some elapsed => exact Latency.within?_le inTime

/-- A check fails at its end. -/
theorem Check.failure?_elapsed_le {α : Type} {check : Check α} {failure : Duration × Halt} {n : Nat}
    (failed : check.failure? = some failure) (bound : check.elapsed.millis ≤ n) :
    failure.1.millis ≤ n := by
  unfold failure? at failed
  split at failed <;> cases failed
  exact bound

namespace Services

variable (services : Services)

/-- The lookups of a deployment overlap: together they take no longer than one of them may. -/
theorem checkTarget_elapsed_le (limit : Duration) (target : DeployTarget) :
    (services.checkTarget limit target).check.elapsed.millis ≤ limit.millis := by
  have image : (services.checkImage limit target.imageId).elapsed.millis ≤ limit.millis :=
    Behaviour.check_elapsed_le _ _ _
  have host : (services.checkHost limit target.host).elapsed.millis ≤ limit.millis :=
    Behaviour.check_elapsed_le _ _ _
  have cluster : (services.checkCluster limit target.cluster).elapsed.millis ≤ limit.millis :=
    Behaviour.check_elapsed_le _ _ _
  unfold checkTarget
  extract_lets
  split
  · rename_i elapsed halt first
    obtain ⟨failure, listed, same⟩ := List.mem_filterMap.mp (earliest?_mem first)
    simp only [List.mem_cons, List.not_mem_nil, or_false] at listed
    rcases listed with rfl | rfl | rfl
    · exact Check.failure?_elapsed_le same image
    · exact Check.failure?_elapsed_le same host
    · exact Check.failure?_elapsed_le same cluster
  · exact Nat.max_le.mpr ⟨image, Nat.max_le.mpr ⟨host, cluster⟩⟩

theorem validateVm_elapsed_le (config : ValidationConfig) (vmId : String) (operation : Operation) :
    (services.validateVm config vmId operation).check.elapsed.millis ≤
      if config.enabled then config.vmTimeout.millis else 0 := by
  have strict : (services.checkVmStrictly config.strictVmTimeout vmId operation).elapsed.millis ≤
      config.strictVmTimeout.millis := by
    unfold checkVmStrictly
    extract_lets behaviour
    cases inTime : behaviour.latency.within? config.strictVmTimeout with
    | none => exact Nat.le_refl _
    | some elapsed => exact Latency.within?_le inTime
  have lenient :
      (services.checkVmLeniently config.bestEffortVmTimeout vmId operation).elapsed.millis ≤
        config.bestEffortVmTimeout.millis := by
    unfold checkVmLeniently
    extract_lets behaviour
    cases inTime : behaviour.latency.within? config.bestEffortVmTimeout with
    | none => exact Nat.le_refl _
    | some elapsed => exact Latency.within?_le inTime
  unfold validateVm ValidationConfig.vmTimeout
  split
  · cases config.vmPolicy
    · exact strict
    · exact lenient
  · exact Nat.le_refl _

end Services

namespace PipelineConfig

variable {config : PipelineConfig} {services : Services} {scope : Scope}

theorem deploy_checked_elapsed_le (order : DeployOrder) :
    (config.deploy services order scope).check.elapsed.millis ≤
      if config.validation.enabled then config.validation.lookupTimeout.millis else 0 := by
  unfold deploy
  split
  · exact Nat.zero_le _
  split
  · rename_i enabled
    split
    · exact Nat.zero_le _
    · rename_i target _
      simp only [Preflight.andThen, Check.andThen, Services.validateDeploy, if_pos enabled]
      exact services.checkTarget_elapsed_le _ target
  · exact Nat.le_refl _

theorem submit_checked_elapsed_le (operation : Operation) (order : VmOrder) :
    (config.submit services operation order scope).check.elapsed.millis ≤
      if config.validation.enabled then config.validation.vmTimeout.millis else 0 := by
  unfold submit
  split
  · exact Nat.zero_le _
  split
  · exact Nat.zero_le _
  · exact services.validateVm_elapsed_le config.validation order.vmId operation

end PipelineConfig

/-- Nobody waits longer than the limits allow, however slow the services and the store are, whatever
they answer and whether they answer at all. A deployment is over after the time of one lookup and
that of the calls that record it, which are two, or one if it is recorded at once; an operation on a
machine after the time that the policy gives the machine and that of one call; with the checks
disabled only the calls count. A request is found or not after two calls, and all are listed after
one. The store of the pipeline is one of the stores that this is about. -/
theorem over_in_time {σ : Type} (conduct : Conduct σ) (store : σ) (config : PipelineConfig)
    (services : Services) (scope : Scope) :
    let limit := config.admission.storeTimeout
    let checks (d : Duration) : Nat := if config.validation.enabled then d.millis else 0
    (∀ order, ((config.deploy services order scope).runOn conduct limit store).elapsed.millis ≤
      checks config.validation.lookupTimeout +
        (if config.admission.atomic then 1 else 2) * limit.millis) ∧
    (∀ operation order,
      ((config.submit services operation order scope).runOn conduct limit store).elapsed.millis ≤
        checks config.validation.vmTimeout + limit.millis) ∧
    (∀ id, ((findRequest id).runOn conduct limit store).elapsed.millis ≤ 2 * limit.millis) ∧
    (listRequests.runOn conduct limit store).elapsed.millis ≤ limit.millis ∧
    (∀ (submission : Submission Recorded) (memory : Store),
      submission.runOn Store.conduct limit memory =
        let attempt := submission.run limit memory
        ⟨attempt.elapsed, attempt.result, attempt.store⟩) ∧
    ∀ (α : Type) (dialogue : Dialogue α) (memory : Store),
      dialogue.runOn Store.conduct limit memory =
        let finished := dialogue.run limit memory
        ⟨finished.elapsed, finished.result, finished.store⟩ := by
  intro limit checks
  refine ⟨fun order => ?_, fun operation order => ?_, fun id => ?_, ?_,
    fun submission => submission.runOn_store limit, fun _ dialogue => dialogue.runOn_store limit⟩
  · refine Submission.elapsed_le conduct limit (PipelineConfig.deploy_checked_elapsed_le order)
      (fun dialogue passed => ?_) store
    have passed : (Order.deploy config services order scope).submission.check.result =
        .ok dialogue := passed
    obtain ⟨new, rfl, deploy⟩ := Order.record_of_passed passed
    exact recordRequest_deploy_rounds config.admission deploy
  · have rounds (dialogue : Dialogue Recorded)
        (passed : (Order.submit config services operation order scope).submission.check.result =
          .ok dialogue) : dialogue.Rounds 1 := by
      obtain ⟨new, rfl, other⟩ := Order.record_of_passed passed
      exact recordRequest_other_rounds config.admission other
    have bound := Submission.elapsed_le conduct limit
      (PipelineConfig.submit_checked_elapsed_le operation order) rounds store
    rwa [Nat.one_mul] at bound
  · exact (findRequest_rounds id).elapsed_le conduct limit store
  · exact (Nat.one_mul limit.millis) ▸ listRequests_rounds.elapsed_le conduct limit store

/-- A deployment whose lookups and calls take as long as they may. -/
example :
    let config : PipelineConfig := { validation := { enabled := true } }
    let services : Services := {
      images := ⟨.after (.ofSeconds 30), .answer [⟨"img-1", "one.ova", none⟩]⟩
      hosts := ⟨.after (.ofSeconds 30), .answer [⟨"esx-01", "OK"⟩]⟩
      clusters := ⟨.after (.ofSeconds 30), .answer [⟨"prod", "OK"⟩]⟩
      vm := fun _ => ⟨.never, .crash⟩ }
    let order : DeployOrder := {
      destination := { clusterId := some "prod", hostId := some "esx-01" }
      imageSource := { imageId := some "img-1" }
      vmConfig := { name := "web", numberOfVms := some 1 } }
    let slow : Method → Gate := fun
      | .createInstances => { latency := .never }
      | _ => { latency := .after (.ofSeconds 10) }
    let store : Store := { stamps := Stamp.numbered, gates := slow }
    ((config.deploy services order {}).run config.admission.storeTimeout store).elapsed =
      .ofSeconds (30 + 2 * 10) := by
  decide +kernel

end VmAdmission
