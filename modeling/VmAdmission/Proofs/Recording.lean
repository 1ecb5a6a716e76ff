import VmAdmission.Admission
import VmAdmission.Proofs.Ledger.Reach
import VmAdmission.Proofs.PlannedMachines

namespace VmAdmission

namespace Store

/-- A store in memory with nothing before its methods. -/
structure Open (store : Store) : Prop where
  backend : store.backend = .memory
  gates : store.gates = fun _ => {}

theorem within?_none (limit : Duration) : Latency.none.within? limit = some ⟨0⟩ := by
  rw [Latency.none, Latency.within?]
  exact if_pos (Nat.zero_le limit.millis)

theorem Open.letsThrough {store : Store} (isOpen : store.Open) (limit : Duration)
    (method : Method) : store.LetsThrough limit method := by
  constructor <;> rw [isOpen.gates]
  rw [within?_none]
  exact nofun

/-- In an open store every call comes through to the ledger. -/
theorem Open.answerWithin {store : Store} (isOpen : store.Open) (limit : Duration) (call : Call) :
    store.answerWithin limit call =
      ⟨⟨0⟩, (call.perform store.nextStamp store.ledger).1, store.performed call⟩ := by
  simp only [Store.answerWithin, isOpen.gates, within?_none, answer, admitCall, isOpen.backend,
    Store.performed]

end Store

namespace Dialogue

variable {α : Type} {limit : Duration} {store : Store}

/-- What a dialogue comes to: its result, and the ledger after it. -/
def effect (dialogue : Dialogue α) (limit : Duration) (store : Store) :
    Except RequestError α × Ledger :=
  ((dialogue.run limit store).result, (dialogue.run limit store).store.ledger)

@[simp] theorem effect_done (result : Except RequestError α) :
    (done result).effect limit store = (result, store.ledger) := rfl

theorem effect_ask_ok {c : Call} {next : c.Answer → Dialogue α} {answer : c.Answer}
    (answered : (store.answerWithin limit c).outcome = .ok answer) :
    (ask c next).effect limit store =
      (next answer).effect limit (store.answerWithin limit c).store := by
  simp only [effect, ask, run, answered, Finished.delay]

theorem effect_ask_error {c : Call} {next : c.Answer → Dialogue α} {e : StoreError}
    (failed : (store.answerWithin limit c).outcome = .error e) :
    (ask c next).effect limit store =
      (.error (.storage e), (store.answerWithin limit c).store.ledger) := by
  simp only [effect, ask, run, failed, Finished.delay, fail]

/-- If a dialogue that starts with a question fails, the store failed or what came after did. -/
theorem failed_ask {c : Call} {next : c.Answer → Dialogue α} {error : RequestError}
    (failed : ((ask c next).effect limit store).1 = .error error) :
    (∃ e, error = .storage e) ∨
      ∃ answer after, ((next answer).effect limit after).1 = .error error := by
  cases outcome : (store.answerWithin limit c).outcome with
  | error e =>
    rw [effect_ask_error outcome] at failed
    exact .inl ⟨e, (Except.error.inj failed).symm⟩
  | ok answer =>
    rw [effect_ask_ok outcome] at failed
    exact .inr ⟨answer, _, failed⟩

theorem effect_ask_open {c : Call} {next : c.Answer → Dialogue α} {answer : c.Answer}
    {after : Ledger} (isOpen : store.Open)
    (performed : c.perform store.nextStamp store.ledger = (.ok answer, after)) :
    (ask c next).effect limit store =
      (next answer).effect limit { store with ledger := after, issued := store.issued + 1 } := by
  have answered := isOpen.answerWithin limit c
  have outcome : (store.answerWithin limit c).outcome = .ok answer := by rw [answered, performed]
  rw [effect_ask_ok outcome, answered, Store.performed, performed]

theorem effect_ask_open_error {c : Call} {next : c.Answer → Dialogue α} {e : StoreError}
    {after : Ledger} (isOpen : store.Open)
    (performed : c.perform store.nextStamp store.ledger = (.error e, after)) :
    (ask c next).effect limit store = (.error (.storage e), after) := by
  have answered := isOpen.answerWithin limit c
  rw [effect_ask_error (by rw [answered, performed]), answered, Store.performed, performed]

end Dialogue

/-- The request with its machines as they are recorded under a stamp. -/
def NewRequest.recorded (new : NewRequest) (planned : List NewInstance) (stamp : Stamp) :
    Recorded :=
  ⟨new.row stamp, planned.map (·.row stamp.id)⟩

/-- The ledger after a deployment has been recorded with all its machines, by some writes. -/
def Ledger.deployed (ledger : Ledger) (recorded : Recorded) (planned : List NewInstance)
    (writes : Nat) : Ledger :=
  { ledger with
    requests := ledger.requests ++ [recorded.request]
    instances := ledger.instances ++ recorded.instances
    taken := taking ledger.taken recorded.request.id planned
    writes := ledger.writes + writes }

theorem Ledger.extended_bare (ledger : Ledger) (request : RequestRow) :
    ledger.extended [request] [] ledger.taken = ledger.deployed ⟨request, []⟩ [] 1 := rfl

theorem Ledger.extended_deployed (ledger : Ledger) (recorded : Recorded)
    (planned : List NewInstance) :
    (ledger.deployed ⟨recorded.request, []⟩ [] 1).extended [] recorded.instances
        (taking ledger.taken recorded.request.id planned) =
      ledger.deployed recorded planned 2 := by
  simp only [extended, deployed, List.append_nil]

/-- The request of a deployment is written and then its machines are not, because the call for
them fails. -/
structure HalfWritten (config : AdmissionConfig) (store : Store) (new : NewRequest)
    (planned : List NewInstance) (request : RequestRow) (e : StoreError) : Prop where
  inTurn : config.atomic = false
  written : (store.answerWithin config.storeTimeout (.createRequest new)).outcome = .ok request
  needed : planned ≠ []
  failed : ((store.answerWithin config.storeTimeout (.createRequest new)).store.answerWithin
    config.storeTimeout (.createInstances request.id planned)).outcome = .error e

/-- How the recording of a deployment with these machines can end: with all of it in the ledger,
with nothing of it, or with the request alone. -/
inductive DeploymentEnd (config : AdmissionConfig) (store : Store) (new : NewRequest)
    (planned : List NewInstance) : Except RequestError Recorded × Ledger → Prop
  | all (recorded : Recorded) (writes : Nat) (request : recorded.request = new.row store.nextStamp)
      (instances : recorded.instances = planned.map (·.row recorded.request.id)) :
      DeploymentEnd config store new planned
        (.ok recorded, store.ledger.deployed recorded planned writes)
  | nothing (e : StoreError) :
      DeploymentEnd config store new planned (.error (.storage e), store.ledger)
  | requestOnly {request : RequestRow} {e : StoreError}
      (half : HalfWritten config store new planned request e) :
      DeploymentEnd config store new planned
        (.error (.storage e), store.ledger.deployed ⟨request, []⟩ [] 1)

theorem DeploymentEnd.recorded_mem {config : AdmissionConfig} {store : Store} {new : NewRequest}
    {planned : List NewInstance} {recorded : Recorded} {effect : Except RequestError Recorded × Ledger}
    (ending : DeploymentEnd config store new planned effect) (ok : effect.1 = .ok recorded) :
    recorded.request ∈ effect.2.requests := by
  cases ending with
  | all =>
    cases ok
    exact List.mem_append_right _ (List.mem_singleton_self _)
  | nothing => cases ok
  | requestOnly => cases ok

section

variable {config : AdmissionConfig} {store : Store} {new : NewRequest}
  {planned : List NewInstance}

theorem Store.answerWithin_createRequest (memory : store.backend = .memory) {limit : Duration}
    {row : RequestRow} (ok : (store.answerWithin limit (.createRequest new)).outcome = .ok row) :
    row = new.row store.nextStamp ∧
      (store.answerWithin limit (.createRequest new)).store.backend = .memory ∧
      (store.answerWithin limit (.createRequest new)).store.ledger =
        store.ledger.deployed ⟨row, []⟩ [] 1 := by
  obtain ⟨made, after⟩ := answerWithin_ok memory ok
  have performed := Call.createRequest_ok made
  have same : row = new.row store.nextStamp := by
    rw [performed] at made
    exact (Except.ok.inj made).symm
  rw [after, Store.performed, performed, same, ← Ledger.extended_bare]
  exact ⟨rfl, memory, rfl⟩

/-- A deployment that is half written comes to the failure of the second call. -/
theorem HalfWritten.effect (memory : store.backend = .memory) {request : RequestRow}
    {e : StoreError} (half : HalfWritten config store new planned request e)
    (deploy : new.operation = .deploy)
    (plan : planInstances new.metadata config.maxVmsPerDeploy = .ok planned) :
    (recordRequest config new).effect config.storeTimeout store =
      (.error (.storage e), store.ledger.deployed ⟨request, []⟩ [] 1) := by
  obtain ⟨-, stillMemory, after⟩ := Store.answerWithin_createRequest memory half.written
  have inTurn : recordRequest config new = recordInTurn config.maxVmsPerDeploy new :=
    if_neg fun both => absurd both.2 (by simp [half.inTurn])
  rw [inTurn, recordInTurn, Dialogue.effect_ask_ok half.written, if_pos deploy, recordInstances,
    plan, Dialogue.given, if_neg (by simpa using half.needed), Dialogue.effect_ask_error half.failed,
    Store.answerWithin_error stillMemory half.failed, after]

theorem recordRequest_end (memory : store.backend = .memory) (deploy : new.operation = .deploy)
    (plan : planInstances new.metadata config.maxVmsPerDeploy = .ok planned) :
    DeploymentEnd config store new planned
      ((recordRequest config new).effect config.storeTimeout store) := by
  by_cases atomic : config.atomic
  · have atOnce : recordRequest config new = recordAtOnce config.maxVmsPerDeploy new :=
      if_pos ⟨deploy, atomic⟩
    rw [atOnce, recordAtOnce, plan, Dialogue.given]
    cases outcome : (store.answerWithin config.storeTimeout
        (.createRequestWithInstances new planned)).outcome with
    | error e =>
      rw [Dialogue.effect_ask_error outcome, Store.answerWithin_error memory outcome]
      exact .nothing e
    | ok answer =>
      obtain ⟨made, after⟩ := Store.answerWithin_ok memory outcome
      have performed := Call.createRequestWithInstances_ok made
      rw [performed] at made
      cases made
      rw [Dialogue.effect_ask_ok outcome, after, Store.performed, performed]
      exact .all ⟨new.row store.nextStamp, _⟩ 1 rfl rfl
  · have inTurn : recordRequest config new = recordInTurn config.maxVmsPerDeploy new :=
      if_neg fun both => atomic both.2
    cases first : (store.answerWithin config.storeTimeout (.createRequest new)).outcome with
    | error e =>
      rw [inTurn, recordInTurn, Dialogue.effect_ask_error first,
        Store.answerWithin_error memory first]
      exact .nothing e
    | ok request =>
      obtain ⟨row, stillMemory, after⟩ := Store.answerWithin_createRequest memory first
      by_cases none : planned = []
      · rw [inTurn, recordInTurn, Dialogue.effect_ask_ok first, if_pos deploy, recordInstances,
          plan, Dialogue.given, if_pos (by simp [none]), Dialogue.effect_done, after, none]
        exact .all ⟨request, []⟩ 1 row rfl
      cases second : ((store.answerWithin config.storeTimeout (.createRequest new)).store.answerWithin
          config.storeTimeout (.createInstances request.id planned)).outcome with
      | error e =>
        have half : HalfWritten config store new planned request e :=
          ⟨by simpa using atomic, first, none, second⟩
        rw [half.effect memory deploy plan]
        exact .requestOnly half
      | ok rows =>
        obtain ⟨made, last⟩ := Store.answerWithin_ok stillMemory second
        have performed := Call.createInstances_ok made
        rw [performed] at made
        cases made
        rw [inTurn, recordInTurn, Dialogue.effect_ask_ok first, if_pos deploy, recordInstances,
          plan, Dialogue.given, if_neg (by simpa using none), Dialogue.effect_ask_ok second,
          Dialogue.effect_done, last, Store.performed, performed, after]
        exact store.ledger.extended_deployed ⟨request, _⟩ planned ▸ .all ⟨request, _⟩ 2 row rfl

/-- A request that is no deployment is recorded without machines, or it is not recorded. -/
theorem recordRequest_other_end (memory : store.backend = .memory)
    (other : new.operation ≠ .deploy) :
    DeploymentEnd config store new []
      ((recordRequest config new).effect config.storeTimeout store) := by
  have inTurn : recordRequest config new = recordInTurn config.maxVmsPerDeploy new :=
    if_neg fun both => other both.1
  rw [inTurn, recordInTurn]
  cases outcome : (store.answerWithin config.storeTimeout (.createRequest new)).outcome with
  | error e =>
    rw [Dialogue.effect_ask_error outcome, Store.answerWithin_error memory outcome]
    exact .nothing e
  | ok row =>
    obtain ⟨same, -, after⟩ := Store.answerWithin_createRequest memory outcome
    rw [Dialogue.effect_ask_ok outcome, if_neg other, Dialogue.effect_done, after]
    exact .all ⟨row, []⟩ 1 same rfl

end

/-- Once a deployment is planned, only the store can make its recording fail. -/
theorem recordRequest_error {config : AdmissionConfig} {store : Store} {new : NewRequest}
    {planned : List NewInstance} {limit : Duration} {error : RequestError}
    (plan : planInstances new.metadata config.maxVmsPerDeploy = .ok planned)
    (failed : ((recordRequest config new).effect limit store).1 = .error error) :
    ∃ e, error = .storage e := by
  unfold recordRequest at failed
  split at failed
  · rw [recordAtOnce, plan, Dialogue.given] at failed
    obtain stored | ⟨answer, after, done⟩ := Dialogue.failed_ask failed
    · exact stored
    · cases done
  · obtain stored | ⟨request, after, failed⟩ := Dialogue.failed_ask failed
    · exact stored
    split at failed
    · rw [recordInstances, plan, Dialogue.given] at failed
      split at failed
      · cases failed
      obtain stored | ⟨rows, last, done⟩ := Dialogue.failed_ask failed
      · exact stored
      · cases done
    · cases failed

/-- The failure of a request whose write was made to fail. -/
abbrev RequestError.injected (part : FaultyPart) : RequestError :=
  .storage (.unavailable (.injected part))

variable {limit : Duration} {store : Store} {most : UInt32} {new : NewRequest}

/-- A deployment that is recorded at once: nothing is written unless it is planned. -/
theorem recordAtOnce_effect (isOpen : store.Open) (sound : store.ledger.Sound)
    (fresh : store.ledger.Fresh store.nextStamp.id) :
    (recordAtOnce most new).effect limit store =
      match planInstances new.metadata most with
      | .error e => (.error e, store.ledger)
      | .ok planned =>
        let rows := planned.map (·.row store.nextStamp.id)
        if store.ledger.faults.requestWrites then (.error (.injected .requestWrites), store.ledger)
        else if !planned.isEmpty && store.ledger.faults.instanceWrites then
          (.error (.injected .instanceWrites), store.ledger)
        else
          (.ok ⟨new.row store.nextStamp, rows⟩,
            store.ledger.extended [new.row store.nextStamp] rows
              (Ledger.taking store.ledger.taken store.nextStamp.id planned)) := by
  unfold recordAtOnce
  cases plan : planInstances new.metadata most with
  | error e => rfl
  | ok planned =>
    have performed := Call.perform_createRequestWithInstances new
      (sound.free fresh (planInstances_nodup plan))
    simp only
    by_cases failing : store.ledger.faults.requestWrites
    · rw [if_pos failing] at performed ⊢
      exact Dialogue.effect_ask_open_error isOpen performed
    rw [if_neg failing] at performed ⊢
    by_cases alsoFailing : !planned.isEmpty && store.ledger.faults.instanceWrites
    · rw [if_pos alsoFailing] at performed ⊢
      exact Dialogue.effect_ask_open_error isOpen performed
    · rw [if_neg alsoFailing] at performed ⊢
      exact Dialogue.effect_ask_open isOpen performed

/-- A deployment that is recorded in turn: the request is written before it is planned. -/
theorem recordInTurn_effect (isOpen : store.Open) (sound : store.ledger.Sound)
    (fresh : store.ledger.Fresh store.nextStamp.id) (deploy : new.operation = .deploy) :
    (recordInTurn most new).effect limit store =
      let bare := store.ledger.extended [new.row store.nextStamp] [] store.ledger.taken
      if store.ledger.faults.requestWrites then (.error (.injected .requestWrites), store.ledger)
      else match planInstances new.metadata most with
      | .error e => (.error e, bare)
      | .ok planned =>
        let rows := planned.map (·.row store.nextStamp.id)
        if planned.isEmpty then (.ok ⟨new.row store.nextStamp, []⟩, bare)
        else if store.ledger.faults.instanceWrites then (.error (.injected .instanceWrites), bare)
        else
          (.ok ⟨new.row store.nextStamp, rows⟩,
            bare.extended [] rows
              (Ledger.taking store.ledger.taken store.nextStamp.id planned)) := by
  have created : (Call.createRequest new).perform store.nextStamp store.ledger = _ :=
    Call.perform_createRequest new
  unfold recordInTurn
  by_cases failing : store.ledger.faults.requestWrites
  · rw [if_pos failing] at created
    rw [Dialogue.effect_ask_open_error isOpen created]
    exact (if_pos failing).symm
  rw [if_neg failing] at created
  rw [Dialogue.effect_ask_open isOpen created, if_pos deploy, recordInstances]
  simp only [if_neg failing]
  cases plan : planInstances new.metadata most with
  | error e => rfl
  | ok planned =>
    simp only [Dialogue.given]
    by_cases empty : planned.isEmpty
    · simp only [if_pos empty]
      rfl
    simp only [if_neg empty]
    have parent : (store.ledger.extended [new.row store.nextStamp] [] store.ledger.taken).hasRequest
        (new.row store.nextStamp).id = true :=
      Ledger.hasRequest_iff.mpr ⟨new.row store.nextStamp, by simp, rfl⟩
    have added := Call.perform_createInstances (store.stamps (store.issued + 1)) parent
      (sound.free fresh (planInstances_nodup plan))
    have stillOpen : Store.Open { store with
        ledger := store.ledger.extended [new.row store.nextStamp] [] store.ledger.taken
        issued := store.issued + 1 } := ⟨isOpen.backend, isOpen.gates⟩
    by_cases alsoFailing : store.ledger.faults.instanceWrites
    · rw [Ledger.extended_faults, if_pos alsoFailing] at added
      rw [if_pos alsoFailing]
      exact Dialogue.effect_ask_open_error stillOpen added
    · rw [Ledger.extended_faults, if_neg alsoFailing] at added
      rw [if_neg alsoFailing]
      exact Dialogue.effect_ask_open stillOpen added

/-- With nothing in the way, a deployment that can be planned is recorded. -/
theorem recordRequest_open {config : AdmissionConfig} {planned : List NewInstance}
    (isOpen : store.Open) (sound : store.ledger.Sound)
    (fresh : store.ledger.Fresh store.nextStamp.id) (faultless : store.ledger.faults = {})
    (deploy : new.operation = .deploy)
    (plan : planInstances new.metadata config.maxVmsPerDeploy = .ok planned) :
    ((recordRequest config new).effect limit store).1 =
      .ok (new.recorded planned store.nextStamp) := by
  unfold recordRequest
  split
  · rw [recordAtOnce_effect isOpen sound fresh, plan]
    simp [faultless, NewRequest.recorded]
  · rw [recordInTurn_effect isOpen sound fresh deploy, plan]
    cases planned <;> simp [faultless, NewRequest.recorded]

/-- How two recordings of a deployment from one ledger agree, the first in turn and the second at
once. If they succeed, the rows are the same up to the stamp, and only the number of writes differs.
If they fail, they do so for the same reason, unless the deployment cannot be planned and requests
cannot be written either; and then at most the request was written, in turn. -/
def RecordingsAgree (ledger : Ledger) (new : NewRequest) (stamp other : Stamp)
    (plan : Except RequestError (List NewInstance)) :
    Except RequestError Recorded × Ledger → Except RequestError Recorded × Ledger → Prop
  | (.ok first, after), (.ok second, otherAfter) =>
    ∃ planned, plan = .ok planned ∧
      first = ⟨new.row stamp, planned.map (·.row stamp.id)⟩ ∧
      second = ⟨new.row other, planned.map (·.row other.id)⟩ ∧
      after = ledger.deployed first planned (if planned = [] then 1 else 2) ∧
      otherAfter = ledger.deployed second planned 1
  | (.error first, after), (.error second, otherAfter) =>
    (after = ledger ∨ after = ledger.deployed ⟨new.row stamp, []⟩ [] 1) ∧ otherAfter = ledger ∧
      match plan, ledger.faults.requestWrites with
      | .error e, true => first = .injected .requestWrites ∧ second = e
      | _, _ => first = second
  | _, _ => False

/-- From one ledger, recording a deployment in turn and recording it at once agree. -/
theorem recordInTurn_agrees {stamps : Nat → Stamp} {store : Store}
    (reach : StoreReach stamps store) (gates : store.gates = fun _ => {})
    (config : AdmissionConfig) (new : NewRequest) (deploy : new.operation = .deploy)
    (others : Nat → Stamp)
    (fresh : store.ledger.Fresh (stamps store.issued).id)
    (otherFresh : store.ledger.Fresh (others store.issued).id) :
    RecordingsAgree store.ledger new (stamps store.issued) (others store.issued)
      (planInstances new.metadata config.maxVmsPerDeploy)
      ((recordRequest { config with atomic := false } new).effect config.storeTimeout store)
      ((recordRequest { config with atomic := true } new).effect config.storeTimeout
        { store with stamps := others }) := by
  have isOpen : store.Open := ⟨reach.backend, gates⟩
  have otherOpen : Store.Open { store with stamps := others } := ⟨reach.backend, gates⟩
  have stamp : store.nextStamp = stamps store.issued := by rw [Store.nextStamp, reach.stamps_eq]
  have inTurn : recordRequest { config with atomic := false } new =
      recordInTurn config.maxVmsPerDeploy new := if_neg fun both => Bool.noConfusion both.2
  have atOnce : recordRequest { config with atomic := true } new =
      recordAtOnce config.maxVmsPerDeploy new := if_pos ⟨deploy, rfl⟩
  rw [inTurn, recordInTurn_effect isOpen reach.sound (stamp ▸ fresh) deploy, atOnce,
    recordAtOnce_effect otherOpen reach.sound otherFresh, stamp]
  have bare := store.ledger.extended_bare (new.row (stamps store.issued))
  cases plan : planInstances new.metadata config.maxVmsPerDeploy with
  | error e =>
    cases failing : store.ledger.faults.requestWrites with
    | true => simp [RecordingsAgree, failing]
    | false => simp [RecordingsAgree, failing, bare]
  | ok planned =>
    cases failing : store.ledger.faults.requestWrites with
    | true => simp [RecordingsAgree]
    | false =>
      cases planned with
      | nil => exact ⟨[], rfl, rfl, rfl, bare, rfl⟩
      | cons first planned =>
        cases alsoFailing : store.ledger.faults.instanceWrites with
        | true => simp [RecordingsAgree, bare]
        | false => simp [RecordingsAgree, Ledger.extended, Ledger.deployed]

/-- An order that is no order at all, after a request has been recorded. -/
theorem recordInTurn_agrees_unplanned :
    let new : NewRequest := ⟨.deploy, .new, "workspace", "datacenter", "no order"⟩
    let store := (Store.answerWithin { stamps := Stamp.numbered } ⟨0⟩ (.createRequest new)).store
    StoreReach Stamp.numbered store ∧ store.ledger.requests.length = 1 ∧
      RecordingsAgree store.ledger new (Stamp.numbered 1) (Stamp.numbered 2)
        (planInstances "no order" 1000)
        ((recordRequest { atomic := false } new).effect (.ofSeconds 10) store)
        ((recordRequest { atomic := true } new).effect (.ofSeconds 10)
          { store with stamps := fun n => Stamp.numbered (n + 1) }) := by
  intro new store
  have reach : StoreReach Stamp.numbered store := .called _ _ .start
  have fresh (n : Nat) (other : (Stamp.numbered 0).id ≠ (Stamp.numbered n).id) :
      store.ledger.Fresh (Stamp.numbered n).id := by
    intro row member
    cases List.mem_singleton.mp member
    exact other
  exact ⟨reach, rfl, recordInTurn_agrees reach rfl {} new rfl (fun n => Stamp.numbered (n + 1))
    (fresh 1 (by decide)) (fresh 2 (by decide))⟩

end VmAdmission
