import VmAdmission.Proofs.Interleaving
import VmAdmission.Proofs.Ledger.History
import VmAdmission.Query

namespace VmAdmission

open Relation (ReflTransGen)

namespace Store

/-- What stands before the methods of the store never says in its place that nothing was found. -/
def Candid (store : Store) : Prop :=
  ∀ method, (store.gates method).error ≠ some .notFound

/-- A call to a candid store finds nothing only if the ledger has nothing. -/
theorem Candid.not_missing {store : Store} (candid : store.Candid) (memory : store.backend = .memory)
    (limit : Duration) (call : Call)
    (found : (call.perform store.nextStamp store.ledger).1 ≠ .error .notFound) :
    (store.answerWithin limit call).outcome ≠ .error .notFound := by
  unfold answerWithin
  cases (store.gates call.method).latency.within? limit with
  | none => exact fun missing => by cases missing
  | some elapsed =>
    simp only [answer]
    cases gate : (store.gates call.method).error with
    | some e => exact fun missing => candid call.method (Except.error.inj missing ▸ gate)
    | none =>
      simp only [admitCall, memory]
      exact found

theorem answerWithin_reads {store : Store} (memory : store.backend = .memory) (limit : Duration)
    {call : Call} (reads : call.Reads) :
    (store.answerWithin limit call).store.backend = .memory ∧
      (store.answerWithin limit call).store.ledger = store.ledger := by
  obtain ⟨e, -, same⟩ | ⟨-, same⟩ := answerWithin_memory memory limit call
  · rw [same]
    exact ⟨memory, rfl⟩
  · rw [same]
    exact ⟨memory, (store.performed_change call).of_reads reads⟩

end Store

theorem emptyIfMissing_ok {α : Type} {outcome : Except StoreError (List α)} {rows : List α}
    (there : outcome ≠ .error .notFound) (ok : emptyIfMissing outcome = .ok rows) :
    outcome = .ok rows := by
  cases outcome with
  | ok found =>
    cases ok
    rfl
  | error e =>
    cases e with
    | notFound => exact absurd rfl there
    | database | constraint | unavailable => cases ok

namespace Ledger

variable {α : Type} {failing : Bool} {part : FaultyPart} {rows found : α}

/-- Rows that a part of the ledger guards are there, or the part fails. -/
theorem check_then_ne_notFound :
    (do check failing part; return rows : Except StoreError α) ≠ .error .notFound := by
  cases failing <;> exact fun missing => nomatch missing

theorem check_then_ok (ok : (do check failing part; return rows : Except StoreError α) = .ok found) :
    found = rows := by
  cases failing with
  | true => cases ok
  | false => exact (Except.ok.inj ok).symm

end Ledger

namespace Store

variable {store : Store} {limit : Duration} {id : Uuid}

theorem answerWithin_getRequest (memory : store.backend = .memory) {request : RequestRow}
    (ok : (store.answerWithin limit (.getRequest id)).outcome = .ok request) :
    request ∈ store.ledger.requests ∧ request.id = id := by
  obtain ⟨found, -⟩ := answerWithin_ok memory ok
  simp only [Call.perform, Ledger.getRequest] at found
  cases search : store.ledger.requests.find? fun row => row.id == id with
  | none =>
    rw [search] at found
    cases found
  | some row =>
    rw [search] at found
    cases found
    have same := List.find?_some search
    exact ⟨List.mem_of_find?_eq_some search, eq_of_beq same⟩

theorem answerWithin_listInstances (memory : store.backend = .memory) (candid : store.Candid)
    {rows : List InstanceRow}
    (ok : emptyIfMissing (store.answerWithin limit (.listInstances id)).outcome = .ok rows) :
    rows = store.ledger.machinesOf id := by
  have there := candid.not_missing memory limit (.listInstances id)
    Ledger.check_then_ne_notFound
  exact Ledger.check_then_ok (answerWithin_ok memory (emptyIfMissing_ok there ok)).1

theorem answerWithin_listRequests (memory : store.backend = .memory) (candid : store.Candid)
    {rows : List RequestRow}
    (ok : emptyIfMissing (store.answerWithin limit .listRequests).outcome = .ok rows) :
    rows = store.ledger.requests := by
  have there := candid.not_missing memory limit .listRequests fun missing => nomatch missing
  exact (Except.ok.inj (answerWithin_ok memory (emptyIfMissing_ok there ok)).1).symm

theorem answerWithin_listAllInstances (memory : store.backend = .memory) (candid : store.Candid)
    {rows : List InstanceRow}
    (ok : emptyIfMissing (store.answerWithin limit .listAllInstances).outcome = .ok rows) :
    rows = store.ledger.instances := by
  have there := candid.not_missing memory limit .listAllInstances
    Ledger.check_then_ne_notFound
  exact Ledger.check_then_ok (answerWithin_ok memory (emptyIfMissing_ok there ok)).1

end Store

namespace Dialogue

/-- The dialogue makes no calls but such that read. -/
inductive Reads {α : Type} : Dialogue α → Prop
  | done (result : Except RequestError α) : Reads (.done result)
  | call {c : Call} {resume : c.Outcome → Dialogue α} (reads : c.Reads)
      (next : ∀ outcome, Reads (resume outcome)) : Reads (.call c resume)
  | both {c d : Call} {resume : c.Outcome → d.Outcome → Dialogue α} (first : c.Reads)
      (second : d.Reads) (next : ∀ outcome other, Reads (resume outcome other)) :
      Reads (.both c d resume)

theorem Reads.given {α β : Type} {value : Except RequestError α} {next : α → Dialogue β}
    (reads : ∀ found, (next found).Reads) : (given value next).Reads := by
  cases value with
  | ok found => exact reads found
  | error => exact .done _

theorem Reads.step {α : Type} {limit : Duration} {dialogue ahead : Dialogue α}
    {store after : Store} (reads : dialogue.Reads) (step : dialogue.Step limit store ahead after) :
    ahead.Reads ∧ ∃ c : Call, c.Reads ∧ after = (store.answerWithin limit c).store := by
  cases step with
  | call c =>
    cases reads with
    | call reads next => exact ⟨next _, c, reads, rfl⟩
  | first c d =>
    cases reads with
    | both first second next => exact ⟨.call second (next _), c, first, rfl⟩
  | second c d =>
    cases reads with
    | both first second next => exact ⟨.call first fun outcome => next outcome _, d, second, rfl⟩

/-- Nothing is written by a dialogue that only reads. -/
theorem Reads.run_ledger {α : Type} {dialogue : Dialogue α} (reads : dialogue.Reads)
    (limit : Duration) {store : Store} (memory : store.backend = .memory) :
    (dialogue.run limit store).store.ledger = store.ledger := by
  induction reads generalizing store with
  | done => rfl
  | call reads next ih =>
    obtain ⟨stillMemory, same⟩ := Store.answerWithin_reads memory limit reads
    exact (ih _ stillMemory).trans same
  | both first second next ih =>
    obtain ⟨stillMemory, same⟩ := Store.answerWithin_reads memory limit first
    obtain ⟨lastMemory, last⟩ := Store.answerWithin_reads stillMemory limit second
    exact (ih _ _ lastMemory).trans (last.trans same)

end Dialogue

theorem findRequest_reads (id : Uuid) : (findRequest id).Reads := by
  refine .call trivial fun outcome => ?_
  cases outcome with
  | ok request => exact .call trivial fun machines => .given fun rows => .done _
  | error e => cases e <;> exact .done _

theorem listRequests_reads : listRequests.Reads :=
  .both trivial trivial fun _ _ => .given fun _ => .given fun _ => .done _

namespace System

variable {stamps : Nat → Stamp} {system after later : System}

/-- A step is one that leaves the store alone but for its gates and faults, or a call. -/
theorem Step.store (step : system.Step after) :
    (∃ gates faults, after.store = system.store.disturb gates faults) ∨
      after.store = system.store ∨
      ∃ limit call, after.store = (system.store.answerWithin limit call).store := by
  cases step with
  | passed => exact .inr (.inl rfl)
  | disturbed gates faults => exact .inl ⟨gates, faults, rfl⟩
  | read limit => exact .inr (.inr ⟨limit, _, rfl⟩)
  | called waiting step =>
    obtain ⟨c, answered⟩ := step.answered
    exact .inr (.inr ⟨_, c, answered⟩)

/-- The rows stay where they are, and stamps stay used up. -/
structure Before (system later : System) : Prop where
  requests : system.store.ledger.requests <+: later.store.ledger.requests
  instances : system.store.ledger.instances <+: later.store.ledger.instances
  issued : system.store.issued ≤ later.store.issued

theorem Before.refl (system : System) : system.Before system :=
  ⟨List.prefix_refl _, List.prefix_refl _, Nat.le_refl _⟩

theorem Before.trans (first : system.Before after) (second : after.Before later) :
    system.Before later :=
  ⟨first.requests.trans second.requests, first.instances.trans second.instances,
    Nat.le_trans first.issued second.issued⟩

theorem Step.reach (reach : StoreReach stamps system.store) (step : system.Step after) :
    StoreReach stamps after.store := by
  obtain ⟨gates, faults, same⟩ | same | ⟨limit, call, same⟩ := step.store
  · exact same ▸ .disturbed gates faults reach
  · exact same ▸ reach
  · exact same ▸ .called limit call reach

theorem Step.all_reach (reach : StoreReach stamps system.store)
    (steps : ReflTransGen Step system later) : StoreReach stamps later.store := by
  induction steps with
  | refl => exact reach
  | tail _ step ih => exact step.reach ih

theorem Step.before (reach : StoreReach stamps system.store) (step : system.Step after) :
    system.Before after := by
  have memory := reach.backend
  obtain ⟨gates, faults, same⟩ | same | ⟨limit, call, same⟩ := step.store
  · obtain ⟨requests, instances⟩ := Store.after_prefixes memory (.disturbed gates faults)
    exact ⟨same ▸ requests, same ▸ instances, same ▸ Nat.le_refl _⟩
  · exact ⟨same ▸ List.prefix_refl _, same ▸ List.prefix_refl _, same ▸ Nat.le_refl _⟩
  · obtain ⟨requests, instances⟩ := Store.after_prefixes memory (.called limit call)
    exact ⟨same ▸ requests, same ▸ instances,
      same ▸ Store.issued_le_answerWithin memory limit call⟩

theorem Step.all_kept (reach : StoreReach stamps system.store)
    (steps : ReflTransGen Step system later) : system.Before later := by
  induction steps with
  | refl => exact .refl system
  | tail steps step ih => exact ih.trans (step.before (Step.all_reach reach steps))

theorem Step.all_before (reach : SystemReach stamps system)
    (steps : ReflTransGen Step system later) : system.Before later :=
  Step.all_kept reach.store steps

end System

/-- Somebody who reads from the store while orders are handled over it. -/
structure Observation (α : Type) where
  system : System
  reader : Dialogue α

/-- What can happen next: one of the orders goes on, or the reader has its next call answered by a
candid store. -/
inductive Observation.Step {α : Type} (limit : Duration) (observation : Observation α) :
    Observation α → Prop
  | others {after : System} (step : observation.system.Step after) :
      Step limit observation ⟨after, observation.reader⟩
  | reader {ahead : Dialogue α} {store : Store} (candid : observation.system.store.Candid)
      (step : observation.reader.Step limit observation.system.store ahead store) :
      Step limit observation ⟨{ observation.system with store }, ahead⟩

section

variable {α : Type} (stamps : Nat → Stamp) (limit : Duration)

/-- Whenever the call is made from now on, its outcome and the system after it are as they should
be. -/
def System.Asked (c : Call) (next : c.Outcome → System → Prop) (system : System) : Prop :=
  ∀ later, ReflTransGen System.Step system later → DistinctIds stamps later.store.issued →
    later.store.Candid →
    next (later.store.answerWithin limit c).outcome
      { later with store := (later.store.answerWithin limit c).store }

/-- Whatever happens between the calls of the reader, what it comes to will be as it should be, if it
does not fail. -/
def Dialogue.Ensures (wanted : System → α → Prop) : Dialogue α → System → Prop
  | .done result, system => ∀ value, result = .ok value →
      ∀ later, ReflTransGen System.Step system later → DistinctIds stamps later.store.issued →
        wanted later value
  | .call c resume, system => system.Asked stamps limit c fun outcome => (resume outcome).Ensures wanted
  | .both c d resume, system =>
      (system.Asked stamps limit c fun outcome system => system.Asked stamps limit d fun other =>
        (resume outcome other).Ensures wanted) ∧
      system.Asked stamps limit d fun other system => system.Asked stamps limit c fun outcome =>
        (resume outcome other).Ensures wanted

end

namespace Observation

variable {α : Type} {stamps : Nat → Stamp} {limit : Duration} {first last : Observation α}

theorem Step.system_steps (reads : first.reader.Reads) (step : first.Step limit last) :
    last.reader.Reads ∧ first.system.Step last.system := by
  cases step with
  | others step => exact ⟨reads, step⟩
  | reader candid step =>
    obtain ⟨still, c, reading, rfl⟩ := reads.step step
    exact ⟨still, .read limit reading⟩

/-- For the orders the calls of the reader are reads like others. -/
theorem system_steps (reads : first.reader.Reads) (run : ReflTransGen (Step limit) first last) :
    last.reader.Reads ∧ ReflTransGen System.Step first.system last.system := by
  induction run with
  | refl => exact ⟨reads, .refl⟩
  | tail _ step ih =>
    obtain ⟨still, next⟩ := step.system_steps ih.1
    exact ⟨still, ih.2.tail next⟩

end Observation

namespace Dialogue.Ensures

variable {α : Type} {stamps : Nat → Stamp} {limit : Duration}
  {wanted : System → α → Prop} {dialogue ahead : Dialogue α}
  {system after : System} {store : Store}

theorem later (ensures : dialogue.Ensures stamps limit wanted system)
    (steps : ReflTransGen System.Step system after) :
    dialogue.Ensures stamps limit wanted after := by
  cases dialogue with
  | done result => exact fun value same last more => ensures value same last (steps.trans more)
  | call c resume => exact fun last more => ensures last (steps.trans more)
  | both c d resume =>
    exact ⟨fun last more => ensures.1 last (steps.trans more),
      fun last more => ensures.2 last (steps.trans more)⟩

theorem of_fail (error : RequestError) : (fail error).Ensures stamps limit wanted system :=
  fun _ same => nomatch same

theorem of_given {β : Type} {value : Except RequestError β} {next : β → Dialogue α}
    (ensures : ∀ found, value = .ok found → (next found).Ensures stamps limit wanted system) :
    (given value next).Ensures stamps limit wanted system := by
  cases value with
  | ok found => exact ensures found rfl
  | error error => exact of_fail error

/-- Of two reads that are made at the same time each has a moment of its own, and both moments have
passed when the dialogue goes on. -/
theorem of_both {c d : Call} {resume : c.Outcome → d.Outcome → Dialogue α} (reads : c.Reads)
    (alsoReads : d.Reads)
    (ensures : ∀ one other after, ReflTransGen System.Step system one →
      ReflTransGen System.Step system other → one.store.Candid → other.store.Candid →
      ReflTransGen System.Step one after → ReflTransGen System.Step other after →
      (resume (one.store.answerWithin limit c).outcome
        (other.store.answerWithin limit d).outcome).Ensures stamps limit wanted after) :
    (Dialogue.both c d resume).Ensures stamps limit wanted system := by
  constructor
  · intro first before _ candid second between _ stillCandid
    have since := ReflTransGen.head (.read limit reads) between
    exact ensures first second _ before (before.trans since) candid stillCandid
      (since.tail (.read limit alsoReads)) (.single (.read limit alsoReads))
  · intro first before _ candid second between _ stillCandid
    have since := ReflTransGen.head (.read limit alsoReads) between
    exact ensures second first _ (before.trans since) before stillCandid candid
      (.single (.read limit reads)) (since.tail (.read limit reads))

theorem step (ensures : dialogue.Ensures stamps limit wanted system)
    (distinct : DistinctIds stamps system.store.issued) (candid : system.store.Candid)
    (step : dialogue.Step limit system.store ahead store) :
    ahead.Ensures stamps limit wanted { system with store } := by
  cases step with
  | call c => exact ensures system .refl distinct candid
  | first c d => exact ensures.1 system .refl distinct candid
  | second c d => exact ensures.2 system .refl distinct candid

/-- What a reader ensures whatever comes between its calls holds at its end. -/
theorem run {first : Observation α} {last : System} {value : α}
    (ensures : first.reader.Ensures stamps limit wanted first.system)
    (reach : SystemReach stamps first.system) (reads : first.reader.Reads)
    (run : ReflTransGen (Observation.Step limit) first ⟨last, .done (.ok value)⟩)
    (distinct : DistinctIds stamps last.store.issued) : wanted last value := by
  -- What is ensured is handed on from each step to the next, so steps are taken off the beginning.
  induction run using ReflTransGen.head_induction_on with
  | refl => exact ensures value rfl last .refl distinct
  | @head before after step rest ih =>
    obtain ⟨still, next⟩ := step.system_steps reads
    obtain ⟨-, steps⟩ := Observation.system_steps reads (.head step rest)
    have issued := (System.Step.all_before reach steps).issued
    refine ih ?_ (reach.next next) still
    cases step with
    | others step => exact ensures.later (.single step)
    | reader candid step => exact ensures.step (distinct.mono issued) candid step

end Dialogue.Ensures

theorem Store.Open.candid {store : Store} (isOpen : store.Open) : store.Candid := by
  intro method missing
  rw [isOpen.gates] at missing
  cases missing

/-- A call that nothing stands in the way of is answered by the ledger. -/
theorem Dialogue.Step.of_open {α : Type} (limit : Duration) {store : Store} (isOpen : store.Open)
    (c : Call) (resume : c.Outcome → Dialogue α) :
    (Dialogue.call c resume).Step limit store (resume (c.perform store.nextStamp store.ledger).1)
      (store.performed c) := by
  have step : (Dialogue.call c resume).Step limit store _ _ := .call c resume store
  rw [isOpen.answerWithin] at step
  exact step

theorem Dialogue.Step.first_of_open {α : Type} (limit : Duration) {store : Store}
    (isOpen : store.Open) (c d : Call) (resume : c.Outcome → d.Outcome → Dialogue α) :
    (Dialogue.both c d resume).Step limit store
      (.call d (resume (c.perform store.nextStamp store.ledger).1)) (store.performed c) := by
  have step : (Dialogue.both c d resume).Step limit store _ _ := .first c d resume store
  rw [isOpen.answerWithin] at step
  exact step

/-- The orders can go on for a while before the reader does. -/
theorem Observation.all_of_others {α : Type} (limit : Duration) {reader : Dialogue α}
    {system later : System} (steps : ReflTransGen System.Step system later) :
    ReflTransGen (Observation.Step limit) ⟨system, reader⟩ ⟨later, reader⟩ :=
  steps.lift (fun system => Observation.mk system reader) fun _ _ step => .others step

/-- The store after a deployment has been recorded in one call. -/
def Store.deployed (store : Store) (recorded : Recorded) (planned : List NewInstance) : Store :=
  { store with
    ledger := store.ledger.deployed recorded planned 1
    issued := store.issued + 1 }

/-- A deployment that is recorded in one call, by itself and with nothing in its way. -/
theorem System.Step.all_of_deploy {stamps : Nat → Stamp} {system : System}
    (reach : SystemReach stamps system) (isOpen : system.store.Open)
    (distinct : DistinctIds stamps (system.store.issued + 1))
    (faultless : system.store.ledger.faults = {}) {config : PipelineConfig} (services : Services)
    {order : DeployOrder} (scope : Scope) (unchecked : config.validation.enabled = false)
    (atomic : config.admission.atomic = true)
    (allowed : checkVmCount order.requested config.admission.maxVmsPerDeploy = .ok ()) :
    let new := scope.newRequest .deploy .new order.text
    let recorded := new.recorded order.machines system.store.nextStamp
    ∃ authors, ReflTransGen Step system
      ⟨system.store.deployed recorded order.machines,
        system.callers ++ [⟨.deploy config services order scope, .done (.ok recorded)⟩],
        authors⟩ := by
  intro new recorded
  let limit := config.admission.storeTimeout
  have passed : (config.deploy services order scope).check.result =
      .ok (config.recordDeploy scope order) := by
    simp only [PipelineConfig.deploy, allowed, unchecked, Bool.false_eq_true, if_false]
  have plan : planInstances new.metadata config.admission.maxVmsPerDeploy = .ok order.machines :=
    DeployOrder.Stored.asGiven.planInstances_ok allowed
  have free := reach.store.sound.free (reach.store.fresh distinct) (planInstances_nodup plan)
  have performed := Call.perform_createRequestWithInstances new free
  rw [faultless, if_neg Bool.false_ne_true, Bool.and_false, if_neg Bool.false_ne_true] at performed
  have atOnce : config.recordDeploy scope order =
      recordAtOnce config.admission.maxVmsPerDeploy new := if_pos ⟨rfl, atomic⟩
  have call : (config.recordDeploy scope order).Step limit system.store (.done (.ok recorded))
      (system.store.deployed recorded order.machines) := by
    rw [atOnce, recordAtOnce, plan]
    have step := @Dialogue.Step.of_open Recorded limit system.store isOpen
      (.createRequestWithInstances new order.machines)
    rw [Store.performed, performed] at step
    exact step _
  let caller : Caller := ⟨.deploy config services order scope, config.recordDeploy scope order⟩
  let waiting : System := { system with callers := system.callers ++ [caller] }
  have waits : system.Step waiting := .passed caller.order passed
  have called : waiting.Step _ := .called (rfl : waiting.callers = system.callers ++ caller :: []) call
  exact ⟨_, .tail (.single waits) called⟩

end VmAdmission
