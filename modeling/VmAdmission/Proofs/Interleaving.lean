import VmAdmission.Proofs.Deployments
import VmAdmission.Proofs.Ledger.Machines
import Mathlib.Logic.Relation

namespace VmAdmission

open Relation (ReflTransGen)

namespace Dialogue

/-- A dialogue makes one of the calls that it can make next. -/
inductive Step {α : Type} (limit : Duration) : Dialogue α → Store → Dialogue α → Store → Prop
  | call (c : Call) (resume : c.Outcome → Dialogue α) (store : Store) :
      Step limit (.call c resume) store (resume (store.answerWithin limit c).outcome)
        (store.answerWithin limit c).store
  | first (c d : Call) (resume : c.Outcome → d.Outcome → Dialogue α) (store : Store) :
      Step limit (.both c d resume) store (.call d (resume (store.answerWithin limit c).outcome))
        (store.answerWithin limit c).store
  | second (c d : Call) (resume : c.Outcome → d.Outcome → Dialogue α) (store : Store) :
      Step limit (.both c d resume) store
        (.call c fun outcome => resume outcome (store.answerWithin limit d).outcome)
        (store.answerWithin limit d).store

theorem Step.answered {α : Type} {limit : Duration} {dialogue ahead : Dialogue α}
    {store after : Store} (step : Step limit dialogue store ahead after) :
    ∃ c, after = (store.answerWithin limit c).store := by
  cases step with
  | call c => exact ⟨c, rfl⟩
  | first c => exact ⟨c, rfl⟩
  | second _ d => exact ⟨d, rfl⟩

/-- A dialogue that starts with a question goes on with the answer, or it fails. -/
theorem Step.of_ask {α : Type} {limit : Duration} {c : Call} {next : c.Answer → Dialogue α}
    {ahead : Dialogue α} {store after : Store} (step : (ask c next).Step limit store ahead after) :
    after = (store.answerWithin limit c).store ∧
      ((∃ answer, (store.answerWithin limit c).outcome = .ok answer ∧ ahead = next answer) ∨
        ∃ error, ahead = fail error) := by
  cases step with
  | call =>
    refine ⟨rfl, ?_⟩
    cases (store.answerWithin limit c).outcome with
    | ok answer => exact .inl ⟨answer, rfl, rfl⟩
    | error e => exact .inr ⟨.storage e, rfl⟩

theorem Step.of_given {α β : Type} {limit : Duration} {value : Except RequestError α}
    {next : α → Dialogue β} {ahead : Dialogue β} {store after : Store}
    (step : (given value next).Step limit store ahead after) :
    ∃ found, value = .ok found ∧ (next found).Step limit store ahead after := by
  cases value with
  | ok found => exact ⟨found, rfl, step⟩
  | error => cases step

section

variable {limit : Duration} {most : UInt32} {ahead : Dialogue Recorded} {store after : Store}

/-- The recording of machines makes one call, for what is planned. -/
theorem Step.of_recordInstances {request : RequestRow} {metadata : String}
    (step : (recordInstances most request metadata).Step limit store ahead after) :
    ∃ planned, planInstances metadata most = .ok planned ∧
      after = (store.answerWithin limit (.createInstances request.id planned)).store ∧
      ∃ result, ahead = .done result := by
  obtain ⟨planned, plan, step⟩ := Step.of_given step
  refine ⟨planned, plan, ?_⟩
  split at step
  · cases step
  obtain ⟨answered, ⟨rows, -, rfl⟩ | ⟨error, rfl⟩⟩ := step.of_ask
  · exact ⟨answered, _, rfl⟩
  · exact ⟨answered, _, rfl⟩

/-- The recording at once makes one call, for the request and what is planned. -/
theorem Step.of_recordAtOnce {new : NewRequest}
    (step : (recordAtOnce most new).Step limit store ahead after) :
    ∃ planned, planInstances new.metadata most = .ok planned ∧
      after = (store.answerWithin limit (.createRequestWithInstances new planned)).store ∧
      ∃ result, ahead = .done result := by
  obtain ⟨planned, plan, step⟩ := Step.of_given step
  obtain ⟨answered, ⟨rows, -, rfl⟩ | ⟨error, rfl⟩⟩ := step.of_ask
  · exact ⟨planned, plan, answered, _, rfl⟩
  · exact ⟨planned, plan, answered, _, rfl⟩

/-- The recording in turn begins with the request. It goes on only with the machines of a
deployment, once the request is written. -/
theorem Step.of_recordInTurn {new : NewRequest}
    (step : (recordInTurn most new).Step limit store ahead after) :
    after = (store.answerWithin limit (.createRequest new)).store ∧
      ((∃ row, (store.answerWithin limit (.createRequest new)).outcome = .ok row ∧
          new.operation = .deploy ∧
          ahead = recordInstances most row new.metadata) ∨
        ∃ result, ahead = .done result) := by
  obtain ⟨answered, ⟨row, ok, rfl⟩ | ⟨error, rfl⟩⟩ := step.of_ask
  · refine ⟨answered, ?_⟩
    by_cases deploy : new.operation = .deploy
    · exact .inl ⟨row, ok, deploy, if_pos deploy⟩
    · exact .inr ⟨_, if_neg deploy⟩
  · exact ⟨answered, .inr ⟨_, rfl⟩⟩

end

/-- A dialogue makes calls one after the other. -/
inductive Steps {α : Type} (limit : Duration) : Dialogue α → Store → Dialogue α → Store → Prop
  | refl (dialogue : Dialogue α) (store : Store) : Steps limit dialogue store dialogue store
  | next {first second last : Dialogue α} {store between after : Store} :
      Step limit first store second between → Steps limit second between last after →
      Steps limit first store last after

/-- A dialogue that is run makes its calls one after the other, up to its end. -/
theorem run_steps {α : Type} (limit : Duration) (dialogue : Dialogue α) (store : Store) :
    Steps limit dialogue store (.done (dialogue.run limit store).result)
      (dialogue.run limit store).store := by
  induction dialogue generalizing store with
  | done result => exact .refl _ _
  | call c resume ih => exact .next (.call c resume store) (ih _ _)
  | both c d resume ih => exact .next (.first c d resume store) (.next (.call d _ _) (ih _ _ _))

end Dialogue

/-- The call only reads. -/
def Call.Reads : Call → Prop
  | createRequest _ => False
  | createInstances _ _ => False
  | createRequestWithInstances _ _ => False
  | _ => True

theorem Call.Change.of_reads {stamp : Stamp} {ledger after : Ledger} {call : Call}
    (change : Change stamp ledger call after) (reads : call.Reads) : after = ledger := by
  cases change with
  | none => rfl
  | request | instances | both => exact reads.elim

/-- An order as it is handled: with settings and services of its own. -/
inductive Order
  | deploy (config : PipelineConfig) (services : Services) (order : DeployOrder) (scope : Scope)
  | submit (config : PipelineConfig) (services : Services) (operation : Operation)
      (order : VmOrder) (scope : Scope)

namespace Order

def config : Order → PipelineConfig
  | deploy config _ _ _ => config
  | submit config _ _ _ _ => config

/-- What is done with the order. -/
def submission : Order → Submission Recorded
  | deploy config services order scope => config.deploy services order scope
  | submit config services operation order scope => config.submit services operation order scope

/-- The order is a deployment that is recorded in one call. -/
def AtOnce : Order → Prop
  | deploy config _ _ _ => config.admission.atomic = true
  | submit _ _ _ _ _ => False

end Order

/-- An order that has passed its checks, and what is left to do at the store. -/
structure Caller where
  order : Order
  ahead : Dialogue Recorded

/-- Orders that are handled at the same time over one store. -/
structure System where
  store : Store
  callers : List Caller := []
  /-- The ids of the recorded requests, each with the order that it was recorded for. -/
  authors : List (Uuid × Order) := []

/-- What can happen next: an order passes its checks, the behaviour of the store changes, somebody
reads from the store, or one of the orders has its next call answered. -/
inductive System.Step (system : System) : System → Prop
  | passed (order : Order) {dialogue : Dialogue Recorded}
      (passed : order.submission.check.result = .ok dialogue) :
      Step system { system with callers := system.callers ++ [⟨order, dialogue⟩] }
  | disturbed (gates : Method → Gate) (faults : Faults) :
      Step system { system with store := system.store.disturb gates faults }
  | read (limit : Duration) {call : Call} (reads : call.Reads) :
      Step system { system with store := (system.store.answerWithin limit call).store }
  | called {before after : List Caller} {caller : Caller} {ahead : Dialogue Recorded}
      {store : Store} (waiting : system.callers = before ++ caller :: after)
      (step : caller.ahead.Step caller.order.config.admission.storeTimeout system.store ahead
        store) :
      Step system {
        store
        callers := before ++ ⟨caller.order, ahead⟩ :: after
        authors := system.authors ++
          (store.ledger.requests.drop system.store.ledger.requests.length).map
            (·.id, caller.order) }

/-- The systems that come about from a new store in memory. -/
inductive SystemReach (stamps : Nat → Stamp) : System → Prop
  | start : SystemReach stamps { store := { stamps } }
  | next {system after : System} :
      SystemReach stamps system → system.Step after → SystemReach stamps after

theorem SystemReach.store {stamps : Nat → Stamp} {system : System}
    (reach : SystemReach stamps system) : StoreReach stamps system.store := by
  induction reach with
  | start => exact .start
  | next _ step ih =>
    cases step with
    | passed => exact ih
    | disturbed gates faults => exact .disturbed gates faults ih
    | read limit => exact .called limit _ ih
    | called waiting step =>
      obtain ⟨c, rfl⟩ := step.answered
      exact .called _ c ih

theorem SystemReach.later {stamps : Nat → Stamp} {system later : System}
    (reach : SystemReach stamps system) (steps : ReflTransGen System.Step system later) :
    SystemReach stamps later := by
  induction steps with
  | refl => exact reach
  | tail _ step ih => exact ih.next step

namespace System

/-- An order can make its calls with no others in between. -/
theorem Step.all_of_steps {store after : Store} {early late : List Caller} {order : Order}
    {authors : List (Uuid × Order)} {dialogue ahead : Dialogue Recorded}
    (steps : dialogue.Steps order.config.admission.storeTimeout store ahead after) :
    ∃ grown, ReflTransGen Step ⟨store, early ++ ⟨order, dialogue⟩ :: late, authors⟩
      ⟨after, early ++ ⟨order, ahead⟩ :: late, grown⟩ := by
  induction steps generalizing authors with
  | refl => exact ⟨authors, .refl⟩
  | @next first second _ store _ _ step _ ih =>
    obtain ⟨grown, rest⟩ := ih
    exact ⟨grown, .head (@Step.called ⟨store, _, authors⟩ early late ⟨order, first⟩ second _ rfl step)
      rest⟩

/-- An order that passes its checks can make all its calls with no others in between. -/
theorem Step.all_of_passed (system : System) {order : Order} {dialogue : Dialogue Recorded}
    (passed : order.submission.check.result = .ok dialogue) :
    let finished := dialogue.run order.config.admission.storeTimeout system.store
    ∃ authors, ReflTransGen Step system
      ⟨finished.store, system.callers ++ [⟨order, .done finished.result⟩], authors⟩ := by
  intro finished
  obtain ⟨authors, steps⟩ := Step.all_of_steps (dialogue.run_steps _ _)
  exact ⟨authors, .head (.passed order passed) steps⟩

end System

/-- How far an order can be: nothing of it is written, its request is written and its machines are
not, or it makes no more calls. -/
inductive Order.Stage (ledger : Ledger) (order : Order) : Dialogue Recorded → Prop
  | request {new : NewRequest} (deploys : order.AtOnce → new.operation = .deploy) :
      Stage ledger order (recordRequest order.config.admission new)
  | machines {request : RequestRow} (there : request ∈ ledger.requests)
      (deploy : request.operation = .deploy) :
      Stage ledger order
        (recordInstances order.config.admission.maxVmsPerDeploy request request.metadata)
  | done (result : Except RequestError Recorded) : Stage ledger order (.done result)

namespace Order

theorem Stage.mono {ledger after : Ledger} {order : Order} {ahead : Dialogue Recorded}
    (stage : order.Stage ledger ahead) (grown : ledger.requests ⊆ after.requests) :
    order.Stage after ahead := by
  cases stage with
  | request deploys => exact .request deploys
  | machines there deploy => exact .machines (grown there) deploy
  | done result => exact .done result

/-- An operation on a machine is refused, or a request that is no deployment is recorded. -/
theorem submit_check (config : PipelineConfig) (services : Services) (operation : Operation)
    (order : VmOrder) (scope : Scope) :
    (∃ halt, (config.submit services operation order scope).check.result = .error halt) ∨
      operation ≠ .deploy ∧ (config.submit services operation order scope).check.result =
        .ok (recordRequest config.admission (scope.newRequest operation .new order.text)) := by
  unfold PipelineConfig.submit
  by_cases deploy : operation = .deploy
  · exact .inl ⟨_, by rw [if_pos deploy]; rfl⟩
  rw [if_neg deploy]
  by_cases nameless : order.vmId ∈ PipelineConfig.namelessIds
  · exact .inl ⟨_, by rw [if_pos nameless]; rfl⟩
  rw [if_neg nameless]
  cases found : (services.validateVm config.validation order.vmId operation).check.result with
  | error halt => exact .inl ⟨halt, Check.andThen_error found⟩
  | ok => exact .inr ⟨deploy, Check.andThen_ok found⟩

/-- An order that has passed its checks is recorded, as a deployment exactly if it is one. -/
theorem record_of_passed {order : Order} {dialogue : Dialogue Recorded}
    (passed : order.submission.check.result = .ok dialogue) :
    ∃ new, dialogue = recordRequest order.config.admission new ∧
      match order with
      | deploy _ _ _ _ => new.operation = .deploy
      | submit _ _ _ _ _ => new.operation ≠ .deploy := by
  cases order with
  | deploy config services order scope =>
    obtain ⟨halt, failed, -⟩ | ⟨-, stored, -, found⟩ := config.deploy_check services order scope
    · cases failed.symm.trans passed
    · cases found.symm.trans passed
      exact ⟨_, rfl, rfl⟩
  | submit config services operation order scope =>
    obtain ⟨halt, failed⟩ | ⟨other, found⟩ := submit_check config services operation order scope
    · cases failed.symm.trans passed
    · cases found.symm.trans passed
      exact ⟨_, rfl, other⟩

theorem stage_of_passed {order : Order} {dialogue : Dialogue Recorded}
    (passed : order.submission.check.result = .ok dialogue) (ledger : Ledger) :
    order.Stage ledger dialogue := by
  obtain ⟨new, rfl, kind⟩ := record_of_passed passed
  cases order with
  | deploy => exact .request fun _ => kind
  | submit => exact .request False.elim

/-- The next call of an order is a proper one, and it leaves the order at one of the stages. An
order that is recorded at once does not write a request alone. -/
theorem Stage.step {store after : Store} {order : Order} {ahead next : Dialogue Recorded}
    {limit : Duration} (stage : order.Stage store.ledger ahead) (memory : store.backend = .memory)
    (step : ahead.Step limit store next after) :
    ∃ call, after = (store.answerWithin limit call).store ∧ store.ledger.Proper call ∧
      order.Stage after.ledger next ∧ (order.AtOnce → ∀ new, call ≠ .createRequest new) := by
  cases stage with
  | done result => cases step
  | machines there deploy =>
    obtain ⟨planned, plan, rfl, result, rfl⟩ := step.of_recordInstances
    exact ⟨_, rfl, .machines there deploy plan, .done result, fun _ _ => Call.noConfusion⟩
  | @request new deploys =>
    unfold recordRequest at step
    split at step
    · rename_i atOnce
      obtain ⟨planned, plan, rfl, result, rfl⟩ := step.of_recordAtOnce
      exact ⟨_, rfl, .both atOnce.1 plan, .done result, fun _ _ => Call.noConfusion⟩
    · rename_i inTurn
      have notAtOnce : ¬ order.AtOnce := by
        intro atOnce
        refine inTurn ⟨deploys atOnce, ?_⟩
        cases order with
        | deploy => exact atOnce
        | submit => exact atOnce.elim
      obtain ⟨rfl, ⟨row, ok, deploy, rfl⟩ | ⟨result, rfl⟩⟩ := step.of_recordInTurn
      · obtain ⟨rfl, -, ledger⟩ := Store.answerWithin_createRequest memory ok
        have there : new.row store.nextStamp ∈
            (store.answerWithin limit (.createRequest new)).store.ledger.requests := by
          rw [ledger]
          exact List.mem_append_right _ (List.mem_singleton_self _)
        exact ⟨_, rfl, .request new, .machines there deploy, fun atOnce => absurd atOnce notAtOnce⟩
      · exact ⟨_, rfl, .request new, .done result, fun atOnce => absurd atOnce notAtOnce⟩

end Order

/-- What holds of a system at all times. -/
structure System.Settled (system : System) : Prop where
  ledger : system.store.ledger.Settled
  /-- Every request has been recorded for an order. -/
  authors : system.authors.map (·.1) = system.store.ledger.requests.map (·.id)
  /-- Deployments that are recorded at once have all their machines. -/
  atOnce : ∀ request ∈ system.store.ledger.requests, ∀ order,
    (request.id, order) ∈ system.authors → order.AtOnce → system.store.ledger.Complete request
  stages : ∀ caller ∈ system.callers, caller.order.Stage system.store.ledger caller.ahead

namespace System.Settled

variable {system : System}

theorem of_ledger_eq (settled : system.Settled) {store : Store} {callers : List Caller}
    (same : store.ledger = system.store.ledger)
    (stages : ∀ caller ∈ callers, caller.order.Stage store.ledger caller.ahead) :
    System.Settled { store, callers, authors := system.authors } where
  ledger := same ▸ settled.ledger
  authors := same ▸ settled.authors
  atOnce := same ▸ settled.atOnce
  stages := stages

theorem mem_authors (settled : system.Settled) {id : Uuid} {order : Order}
    (author : (id, order) ∈ system.authors) :
    ∃ request ∈ system.store.ledger.requests, request.id = id := by
  have ids : id ∈ system.authors.map (·.1) := List.mem_map.mpr ⟨(id, order), author, rfl⟩
  rw [settled.authors] at ids
  exact List.mem_map.mp ids

theorem called (settled : system.Settled) {stamps : Nat → Stamp}
    (reach : StoreReach stamps system.store) {limit : Duration} {call : Call} {order : Order}
    {callers : List Caller}
    (distinct : DistinctIds stamps (system.store.answerWithin limit call).store.issued)
    (proper : system.store.ledger.Proper call)
    (together : order.AtOnce → ∀ new, call ≠ .createRequest new)
    (stages : ∀ caller ∈ callers,
      caller.order.Stage (system.store.answerWithin limit call).store.ledger caller.ahead) :
    System.Settled {
      store := (system.store.answerWithin limit call).store
      callers
      authors := system.authors ++ ((system.store.answerWithin limit call).store.ledger.requests.drop
        system.store.ledger.requests.length).map (·.id, order) } := by
  obtain same | ⟨fresh, change⟩ := reach.answered distinct
  · rw [same, List.drop_length, List.map_nil, List.append_nil]
    exact settled.of_ledger_eq same stages
  have nodup := reach.ids_nodup
    (distinct.mono (Store.issued_le_answerWithin reach.backend limit call))
  have kept (request : RequestRow) (there : request ∈ system.store.ledger.requests) :=
    settled.ledger.complete_kept reach.sound nodup fresh proper change there
  have ledger := settled.ledger.change reach.sound nodup fresh proper change
  obtain same | ⟨added, id, grown, -, complete⟩ := proper.added reach.sound fresh change
  · rw [same, List.drop_length, List.map_nil, List.append_nil]
    refine ⟨ledger, same ▸ settled.authors, ?_, stages⟩
    intro request there other author atOnce
    have there : request ∈ system.store.ledger.requests := same ▸ there
    exact kept request there (settled.atOnce request there other author atOnce)
  · rw [grown, List.drop_left, List.map_singleton]
    refine ⟨ledger, ?_, ?_, stages⟩
    · rw [grown, List.map_append, List.map_append, settled.authors]
      rfl
    · intro request there other author atOnce
      rw [grown] at there
      rcases List.mem_append.mp there with old | new
      · rcases List.mem_append.mp author with earlier | latest
        · exact kept request old (settled.atOnce request old other earlier atOnce)
        · have same : request.id = added.id := congrArg Prod.fst (List.mem_singleton.mp latest)
          exact absurd (same.trans id) (fresh request old)
      · cases List.mem_singleton.mp new
        rcases List.mem_append.mp author with earlier | latest
        · obtain ⟨old, there, same⟩ := settled.mem_authors earlier
          exact absurd (same.trans id) (fresh old there)
        · cases List.mem_singleton.mp latest
          exact complete (together atOnce)

end System.Settled

theorem SystemReach.settled {stamps : Nat → Stamp} {system : System}
    (reach : SystemReach stamps system) (distinct : DistinctIds stamps system.store.issued) :
    system.Settled := by
  induction reach with
  | start =>
    exact {
      ledger := ⟨fun _ member => absurd member List.not_mem_nil,
        fun _ member => absurd member List.not_mem_nil⟩
      authors := rfl
      atOnce := fun _ member => absurd member List.not_mem_nil
      stages := fun _ member => absurd member List.not_mem_nil }
  | @next system after reach step ih =>
    cases step with
    | passed order passed =>
      refine (ih distinct).of_ledger_eq rfl fun caller member => ?_
      rcases List.mem_append.mp member with old | new
      · exact (ih distinct).stages caller old
      · cases List.mem_singleton.mp new
        exact Order.stage_of_passed passed _
    | disturbed gates faults =>
      have before := ih distinct
      exact {
        ledger := ⟨before.ledger.deployments, before.ledger.machines⟩
        authors := before.authors
        atOnce := before.atOnce
        stages := fun caller member => (before.stages caller member).mono (List.Subset.refl _) }
    | @read limit call reads =>
      have memory := reach.store.backend
      have before := ih (distinct.mono (Store.issued_le_answerWithin memory limit call))
      have same : (system.store.answerWithin limit call).store.ledger = system.store.ledger := by
        obtain same | ⟨-, change⟩ := reach.store.answered distinct
        · exact same
        · exact change.of_reads reads
      exact before.of_ledger_eq same (same ▸ before.stages)
    | @called early late caller ahead store waiting step =>
      have memory := reach.store.backend
      have among : caller ∈ system.callers := by simp [waiting]
      obtain ⟨c, again⟩ := step.answered
      have before := ih (distinct.mono (again ▸ Store.issued_le_answerWithin memory _ c))
      obtain ⟨call, rfl, proper, stage, together⟩ := (before.stages caller among).step memory step
      refine before.called reach.store distinct proper together fun other member => ?_
      have grown := Store.requests_subset_answerWithin memory
        caller.order.config.admission.storeTimeout call
      have earlier (there : other ∈ system.callers) := (before.stages other there).mono grown
      rcases List.mem_append.mp member with left | right
      · exact earlier (by simp [waiting, left])
      rcases List.mem_cons.mp right with rfl | right
      · exact stage
      · exact earlier (by simp [waiting, right])

/-- In whatever order the calls of any number of deployments and operations come, and whichever of
them fail: ids of requests are distinct; every machine belongs to a deployment; every request has no
machines, or exactly those that are planned from its own order; every request was recorded for some
order, and a deployment that was recorded at once has all its machines. -/
theorem SystemReach.consistent {stamps : Nat → Stamp} {system : System}
    (reach : SystemReach stamps system) (distinct : DistinctIds stamps system.store.issued) :
    let ledger := system.store.ledger
    (ledger.requests.map (·.id)).Nodup ∧
    (∀ row ∈ ledger.instances,
      ∃ request ∈ ledger.requests, request.id = row.requestId ∧ request.operation = .deploy) ∧
    (∀ request ∈ ledger.requests,
      ledger.machinesOf request.id = [] ∨ ledger.Complete request) ∧
    system.authors.map (·.1) = ledger.requests.map (·.id) ∧
    (∀ request ∈ ledger.requests, ∀ order, (request.id, order) ∈ system.authors → order.AtOnce →
      ledger.Complete request) := by
  have settled := reach.settled distinct
  exact ⟨reach.store.ids_nodup distinct, settled.ledger.deployments, settled.ledger.machines,
    settled.authors, settled.atOnce⟩

/-- A deployment of two machines whose request has just been written. -/
theorem SystemReach.consistent_half_way :
    let order : Order := .deploy {} (.uniform .none .crash) (.ofMachines "web" 2) {}
    ∃ system, SystemReach Stamp.numbered system ∧
      DistinctIds Stamp.numbered system.store.issued ∧
      system.authors = [(⟨0⟩, order)] ∧ system.store.ledger.requests.length = 1 ∧
      ∀ request ∈ system.store.ledger.requests,
        system.store.ledger.machinesOf request.id = [] ∨ system.store.ledger.Complete request := by
  intro order
  have ordered : SystemReach Stamp.numbered _ := .next .start (.passed order rfl)
  have reach : SystemReach Stamp.numbered _ :=
    .next ordered (.called (rfl : _ = [] ++ _ :: []) (.call _ _ _))
  have distinct : DistinctIds Stamp.numbered 1 := distinctIds_numbered (by decide)
  exact ⟨_, reach, distinct, rfl, rfl, (reach.consistent distinct).2.2.1⟩

end VmAdmission
