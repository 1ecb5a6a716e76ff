import VmAdmission.Proofs.Readers

namespace VmAdmission

open Relation (ReflTransGen)

/-- The machines that are planned from the order of a request: none unless it is a deployment. -/
def RequestRow.planned (request : RequestRow) : List InstanceRow :=
  match request.operation, Json.decodeString InstancePlan.decoder request.metadata with
  | .deploy, .ok plan => (List.range plan.size).map fun i => {
      requestId := request.id
      vmName := plan.name ++ "_" ++ toString (i + 1)
      vmId := ""
      status := .init
      stateMessage := ""
      completedAt := none }
  | _, _ => []

theorem RequestRow.mem_planned {request : RequestRow} {row : InstanceRow}
    (member : row ∈ request.planned) : row.requestId = request.id := by
  unfold planned at member
  split at member
  · obtain ⟨i, -, rfl⟩ := List.mem_map.mp member
    rfl
  · cases member

theorem RequestRow.planned_other {request : RequestRow} (other : request.operation ≠ .deploy) :
    request.planned = [] := by
  unfold planned
  split
  · exact absurd ‹_› other
  · rfl

namespace Ledger

variable {ledger : Ledger} {request : RequestRow}

theorem Complete.eq_planned (complete : ledger.Complete request)
    (deploy : request.operation = .deploy) : ledger.machinesOf request.id = request.planned := by
  obtain ⟨plan, read, machines⟩ := complete
  rw [RequestRow.planned, deploy, read]
  exact machines

/-- Only deployments have machines. -/
theorem Settled.machinesOf_other (settled : ledger.Settled)
    (distinct : (ledger.requests.map (·.id)).Nodup) (there : request ∈ ledger.requests)
    (other : request.operation ≠ .deploy) : ledger.machinesOf request.id = [] := by
  refine List.filter_eq_nil_iff.mpr fun row member same => ?_
  obtain ⟨parent, recorded, id, deploy⟩ := settled.deployments row member
  have again : parent = request :=
    List.inj_on_of_nodup_map distinct recorded there (id.trans (eq_of_beq same))
  exact other (again ▸ deploy)

theorem Settled.machinesOf_planned (settled : ledger.Settled)
    (distinct : (ledger.requests.map (·.id)).Nodup) (there : request ∈ ledger.requests) :
    ledger.machinesOf request.id = [] ∨ ledger.machinesOf request.id = request.planned := by
  by_cases deploy : request.operation = .deploy
  · exact (settled.machines request there).imp_right (·.eq_planned deploy)
  · exact .inl (settled.machinesOf_other distinct there deploy)

end Ledger

/-- The order is no deployment, or one that is recorded in one call. -/
def Order.Undivided : Order → Prop
  | deploy config _ _ _ => config.admission.atomic = true
  | submit _ _ _ _ _ => True

/-- No deployment is recorded in two calls. -/
def System.Undivided (system : System) : Prop :=
  ∀ caller ∈ system.callers, caller.order.Undivided

/-- Orders do not go away, so none of those before a step are recorded in two calls if none after
it are. -/
theorem System.Step.undivided {system after : System} (step : system.Step after)
    (undivided : after.Undivided) : system.Undivided := by
  intro other member
  cases step with
  | passed => exact undivided other (List.mem_append_left _ member)
  | disturbed | read => exact undivided other member
  | @called early late caller ahead store waiting step =>
    rw [waiting] at member
    rcases List.mem_append.mp member with left | right
    · exact undivided other (List.mem_append_left _ left)
    rcases List.mem_cons.mp right with rfl | right
    · exact undivided ⟨other.order, ahead⟩ (by simp)
    · exact undivided other (by simp [right])

theorem System.Step.all_undivided {system later : System} (steps : ReflTransGen Step system later)
    (undivided : later.Undivided) : system.Undivided := by
  induction steps with
  | refl => exact undivided
  | tail _ step ih => exact ih (step.undivided undivided)

/-- How far an order that is no deployment in two calls can be: nothing of it is written, or it makes
no more calls. -/
inductive Order.UndividedStage (order : Order) : Dialogue Recorded → Prop
  | request {new : NewRequest}
      (atOnce : new.operation = .deploy → order.config.admission.atomic = true) :
      UndividedStage order (recordRequest order.config.admission new)
  | done (result : Except RequestError Recorded) : UndividedStage order (.done result)

namespace Order

theorem Undivided.stage {order : Order} (undivided : order.Undivided) {dialogue : Dialogue Recorded}
    (passed : order.submission.check.result = .ok dialogue) : order.UndividedStage dialogue := by
  obtain ⟨new, rfl, kind⟩ := record_of_passed passed
  cases order with
  | deploy => exact .request fun _ => undivided
  | submit => exact .request fun deploy => absurd deploy kind

/-- The next call of such an order writes no deployment alone. -/
theorem UndividedStage.step {order : Order} {ahead next : Dialogue Recorded} {limit : Duration}
    {store after : Store} (stage : order.UndividedStage ahead)
    (step : ahead.Step limit store next after) :
    ∃ call, after = (store.answerWithin limit call).store ∧ store.ledger.Proper call ∧
      order.UndividedStage next ∧
      ∀ new, call = .createRequest new → new.operation ≠ .deploy := by
  cases stage with
  | done result => cases step
  | @request new atOnce =>
    unfold recordRequest at step
    split at step
    · rename_i both
      obtain ⟨planned, plan, rfl, result, rfl⟩ := step.of_recordAtOnce
      exact ⟨_, rfl, .both both.1 plan, .done result, fun _ other => nomatch other⟩
    · rename_i inTurn
      have other : new.operation ≠ .deploy := fun deploy => inTurn ⟨deploy, atOnce deploy⟩
      obtain ⟨rfl, ⟨row, -, deploy, -⟩ | ⟨result, rfl⟩⟩ := step.of_recordInTurn
      · exact absurd deploy other
      · refine ⟨_, rfl, .request new, .done result, fun same created => ?_⟩
        cases created
        exact other

end Order

/-- A request that a proper write adds is complete if it is a deployment, unless a deployment was
written alone. -/
theorem Ledger.Proper.added_deployment {ledger after : Ledger} {stamp : Stamp} {call : Call}
    (sound : ledger.Sound) (fresh : ledger.Fresh stamp.id) (proper : ledger.Proper call)
    (change : Call.Change stamp ledger call after)
    (together : ∀ new, call = .createRequest new → new.operation ≠ .deploy)
    {request : RequestRow} (there : request ∈ after.requests)
    (deploy : request.operation = .deploy) :
    request ∈ ledger.requests ∨ after.Complete request := by
  cases change with
  | none => exact .inl there
  | instances => exact .inl (List.append_nil ledger.requests ▸ there)
  | request new =>
    rcases List.mem_append.mp there with old | added
    · exact .inl old
    · cases List.mem_singleton.mp added
      exact absurd deploy (together new rfl)
  | @both new planned free =>
    rcases List.mem_append.mp there with old | added
    · exact .inl old
    · cases List.mem_singleton.mp added
      cases proper with
      | both deploy plan =>
        refine .inr (complete_of_planned plan (machinesOf_extended_same.trans ?_))
        rw [sound.machinesOf_fresh fresh, List.nil_append, NewRequest.row_id]

namespace SystemReach

variable {stamps : Nat → Stamp} {system : System}

/-- If no deployment is recorded in two calls, every deployment has all its machines at all times,
and so it will be. -/
theorem undivided_complete (reach : SystemReach stamps system)
    (distinct : DistinctIds stamps system.store.issued) (undivided : system.Undivided) :
    (∀ request ∈ system.store.ledger.requests, request.operation = .deploy →
      system.store.ledger.Complete request) ∧
    ∀ caller ∈ system.callers, caller.order.UndividedStage caller.ahead := by
  induction reach with
  | start =>
    exact ⟨fun _ member => absurd member List.not_mem_nil,
      fun _ member => absurd member List.not_mem_nil⟩
  | @next system after reach step ih =>
    cases step with
    | passed order passed =>
      obtain ⟨complete, stages⟩ :=
        ih distinct fun caller member => undivided caller (List.mem_append_left _ member)
      refine ⟨complete, fun caller member => ?_⟩
      rcases List.mem_append.mp member with old | new
      · exact stages caller old
      · cases List.mem_singleton.mp new
        exact (undivided ⟨order, _⟩ member).stage passed
    | disturbed gates faults => exact ih distinct undivided
    | @read limit call reads =>
      have memory := reach.store.backend
      obtain ⟨complete, stages⟩ :=
        ih (distinct.mono (Store.issued_le_answerWithin memory limit call)) undivided
      obtain ⟨-, same⟩ := Store.answerWithin_reads memory limit reads
      exact ⟨same ▸ complete, stages⟩
    | @called early late caller ahead store waiting step =>
      have memory := reach.store.backend
      have among : caller ∈ system.callers := by simp [waiting]
      -- `undivided` is about the orders after the step, and all those before it are among them.
      have earlier : system.Undivided := System.Step.undivided (.called waiting step) undivided
      obtain ⟨c, again⟩ := step.answered
      have before := distinct.mono (again ▸ Store.issued_le_answerWithin memory _ c)
      obtain ⟨complete, stages⟩ := ih before earlier
      obtain ⟨call, rfl, proper, stage, together⟩ := (stages caller among).step step
      refine ⟨?_, fun other member => ?_⟩
      · intro request there deploy
        obtain same | ⟨fresh, change⟩ := reach.store.answered distinct
        · rw [same] at there ⊢
          exact complete request there deploy
        obtain old | whole := proper.added_deployment reach.store.sound fresh change together there deploy
        · exact (reach.settled before).ledger.complete_kept reach.store.sound
            (reach.store.ids_nodup before) fresh proper change old (complete request old deploy)
        · exact whole
      · rcases List.mem_append.mp member with left | right
        · exact stages other (by simp [waiting, left])
        rcases List.mem_cons.mp right with rfl | right
        · exact stage
        · exact stages other (by simp [waiting, right])

end SystemReach

/-- What a reader finds: the request with the id, with no machines or with all that are planned from
its order, and with all of them if no deployment is recorded in two calls. -/
structure Recorded.Found (recorded : Recorded) (id : Uuid) (system : System) : Prop where
  there : recorded.request ∈ system.store.ledger.requests
  named : recorded.request.id = id
  machines : recorded.instances = [] ∨ recorded.instances = recorded.request.planned
  undivided : system.Undivided → recorded.instances = recorded.request.planned

section

variable {stamps : Nat → Stamp} {limit : Duration} {id : Uuid} {system last : System}

/-- What is read of the machines of a recorded request at one moment, whatever comes after it. -/
theorem Recorded.found (reach : SystemReach stamps system)
    (distinct : DistinctIds stamps system.store.issued) {request : RequestRow}
    (there : request ∈ system.store.ledger.requests) (named : request.id = id)
    (steps : ReflTransGen System.Step system last) :
    Recorded.Found ⟨request, system.store.ledger.machinesOf id⟩ id last where
  there := (System.Step.all_before reach steps).requests.subset there
  named := named
  machines :=
    named ▸ (reach.settled distinct).ledger.machinesOf_planned (reach.store.ids_nodup distinct) there
  undivided undivided := by
    obtain ⟨complete, -⟩ :=
      reach.undivided_complete distinct (System.Step.all_undivided steps undivided)
    by_cases deploy : request.operation = .deploy
    · exact named ▸ (complete request there deploy).eq_planned deploy
    · have bare := (reach.settled distinct).ledger.machinesOf_other
        (reach.store.ids_nodup distinct) there deploy
      exact named ▸ bare.trans (RequestRow.planned_other deploy).symm

theorem findRequest_ensures (reach : SystemReach stamps system) :
    (findRequest id).Ensures stamps limit (fun last recorded => recorded.Found id last) system := by
  have readsRequest : (Call.getRequest id).Reads := trivial
  have readsMachines : (Call.listInstances id).Reads := trivial
  intro first before _ _
  have reached := reach.later before
  cases outcome : (first.store.answerWithin limit (.getRequest id)).outcome with
  | error e => cases e <;> exact .of_fail _
  | ok request =>
    obtain ⟨there, named⟩ := Store.answerWithin_getRequest reached.store.backend outcome
    intro second between distinct candid
    have steps := ReflTransGen.head (.read limit readsRequest) between
    have there := (System.Step.all_before reached steps).requests.subset there
    have reached := reached.later steps
    refine .of_given fun rows listed => ?_
    have rows := Store.answerWithin_listInstances reached.store.backend candid listed
    intro recorded same last after _
    cases same
    exact rows ▸ Recorded.found reached distinct there named (.head (.read limit readsMachines) after)

/-- A reader that finds a request finds no machines of it or all that are planned from its order, in
turn, and never one of another request, whatever the orders do before, between and after its two
calls. If no deployment is recorded in two calls, it finds all of them. -/
theorem findRequest_whole (reach : SystemReach stamps system) {recorded : Recorded}
    (run : ReflTransGen (Observation.Step limit) ⟨system, findRequest id⟩
      ⟨last, .done (.ok recorded)⟩)
    (distinct : DistinctIds stamps last.store.issued) :
    recorded.request ∈ last.store.ledger.requests ∧ recorded.request.id = id ∧
      (recorded.instances = [] ∨ recorded.instances = recorded.request.planned) ∧
      (∀ row ∈ recorded.instances, row.requestId = id) ∧
      (last.Undivided → recorded.instances = recorded.request.planned) := by
  have found := (findRequest_ensures reach).run reach (findRequest_reads id) run distinct
  refine ⟨found.there, found.named, found.machines, fun row member => ?_, found.undivided⟩
  rcases found.machines with bare | whole
  · rw [bare] at member
    cases member
  · rw [whole] at member
    exact (RequestRow.mem_planned member).trans found.named

end

/-- Two machines that are recorded after the reader has begun and before its first call. -/
theorem findRequest_whole_web :
    let system : System := { store := { stamps := Stamp.numbered } }
    SystemReach Stamp.numbered system ∧ ∃ last recorded,
      ReflTransGen (Observation.Step (.ofSeconds 10)) ⟨system, findRequest ⟨0⟩⟩
        ⟨last, .done (.ok recorded)⟩ ∧
      DistinctIds Stamp.numbered last.store.issued ∧ last.Undivided ∧
      recorded.instances = recorded.request.planned ∧
      recorded.instances.map (·.vmName) = ["web_1", "web_2"] := by
  intro system
  let config : PipelineConfig := { admission := { atomic := true } }
  let services : Services := .uniform .none .crash
  let order : DeployOrder := .ofMachines "web" 2
  have reach : SystemReach Stamp.numbered system := .start
  have distinct : DistinctIds Stamp.numbered 3 := distinctIds_numbered (by decide)
  obtain ⟨authors, deployed⟩ := System.Step.all_of_deploy reach ⟨rfl, rfl⟩
    (distinct.mono (by decide)) rfl services {} (rfl : config.validation.enabled = false) rfl
    (rfl : checkVmCount order.requested config.admission.maxVmsPerDeploy = .ok ())
  let new := Scope.newRequest {} .deploy .new order.text
  let recorded := new.recorded order.machines system.store.nextStamp
  let after := system.store.deployed recorded order.machines
  let between := after.performed (.getRequest ⟨0⟩)
  let last : System := ⟨between.performed (.listInstances ⟨0⟩),
    [⟨.deploy config services order {}, .done (.ok recorded)⟩], authors⟩
  have isOpen : after.Open := ⟨rfl, rfl⟩
  have stillOpen : between.Open := ⟨rfl, rfl⟩
  have run : ReflTransGen (Observation.Step (.ofSeconds 10)) ⟨system, findRequest ⟨0⟩⟩
      ⟨last, .done (.ok recorded)⟩ :=
    ((Observation.all_of_others _ deployed).tail
      (.reader isOpen.candid (.of_open _ isOpen (.getRequest ⟨0⟩) _))).tail
      (.reader stillOpen.candid (.of_open _ stillOpen (.listInstances ⟨0⟩) _))
  have undivided : last.Undivided := by
    intro caller member
    cases List.mem_singleton.mp member
    rfl
  obtain ⟨-, -, -, -, whole⟩ := findRequest_whole reach run distinct
  exact ⟨reach, last, recorded, run, distinct, undivided, whole undivided, by decide⟩

end VmAdmission
