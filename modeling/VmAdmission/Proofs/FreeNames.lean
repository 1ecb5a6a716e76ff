import VmAdmission.Proofs.LastingRequests
import VmAdmission.Proofs.Ledger.Batches

namespace VmAdmission

open Relation (ReflTransGen)

/-- The outcome is not that a rule of the ledger would be broken. -/
def Unconstrained {α : Type} (outcome : Except StoreError α) : Prop :=
  ∀ conflict, outcome ≠ .error (.constraint conflict)

namespace Call

variable {stamp : Stamp} {ledger : Ledger} {request : RequestRow} {new : NewRequest}
  {planned : List NewInstance}

theorem createRequest_unconstrained :
    Unconstrained ((createRequest new).perform stamp ledger).1 := by
  intro conflict failed
  rw [perform_createRequest] at failed
  split at failed <;> cases failed

/-- Machines that have distinct names are recorded for a request that has none yet, unless writes of
machines fail. -/
theorem createInstances_unconstrained (sound : ledger.Sound) (holds : ledger.Holds ⟨request, []⟩)
    (names : (planned.map (·.vmName)).Nodup) :
    Unconstrained ((createInstances request.id planned).perform stamp ledger).1 := by
  have parent : ledger.hasRequest request.id = true :=
    Ledger.hasRequest_iff.mpr ⟨request, holds.there, rfl⟩
  have free : Ledger.Free ledger.taken request.id planned := by
    refine sound.free_iff.mpr ⟨names, fun new _ row there own => ?_⟩
    have listed : row ∈ ledger.machinesOf request.id :=
      List.mem_filter.mpr ⟨there, beq_iff_eq.mpr own⟩
    rw [holds.machines] at listed
    cases listed
  intro conflict failed
  rw [perform_createInstances stamp parent free] at failed
  split at failed <;> cases failed

theorem createRequestWithInstances_unconstrained (sound : ledger.Sound)
    (fresh : ledger.Fresh stamp.id) (names : (planned.map (·.vmName)).Nodup) :
    Unconstrained ((createRequestWithInstances new planned).perform stamp ledger).1 := by
  intro conflict failed
  rw [perform_createRequestWithInstances new (sound.free fresh names)] at failed
  split at failed
  · cases failed
  split at failed <;> cases failed

end Call

/-- The calls that orders make next: for a request alone, for the planned machines of a request that
has none, or for a request with its planned machines. -/
inductive Ledger.Next (ledger : Ledger) : Call → Prop
  | request (new : NewRequest) : Next ledger (.createRequest new)
  | machines {request : RequestRow} {limit : UInt32} {planned : List NewInstance}
      (holds : ledger.Holds ⟨request, []⟩)
      (plan : planInstances request.metadata limit = .ok planned) :
      Next ledger (.createInstances request.id planned)
  | both {new : NewRequest} {limit : UInt32} {planned : List NewInstance}
      (plan : planInstances new.metadata limit = .ok planned) :
      Next ledger (.createRequestWithInstances new planned)

theorem Dialogue.of_given_eq_call {α β : Type} {value : Except RequestError α}
    {next : α → Dialogue β} {call : Call} {resume : call.Outcome → Dialogue β}
    (asks : given value next = .call call resume) :
    ∃ found, value = .ok found ∧ next found = .call call resume := by
  cases value with
  | error => cases asks
  | ok found => exact ⟨found, rfl, asks⟩

theorem Order.Tenure.next {ledger : Ledger} {order : Order} {own : Option Uuid} {call : Call}
    {resume : call.Outcome → Dialogue Recorded}
    (tenure : order.Tenure ledger own (.call call resume)) : ledger.Next call := by
  generalize asks : Dialogue.call call resume = ahead at tenure
  cases tenure with
  | answered | failed => cases asks
  | waiting new =>
    unfold recordRequest at asks
    split at asks
    · obtain ⟨planned, plan, asked⟩ := Dialogue.of_given_eq_call asks.symm
      cases asked
      exact .both plan
    · cases asks
      exact .request new
  | machines holds =>
    obtain ⟨planned, plan, asked⟩ := Dialogue.of_given_eq_call asks.symm
    split at asked <;> cases asked
    exact .machines holds plan

theorem Ledger.Next.unconstrained {ledger : Ledger} {stamp : Stamp} {call : Call}
    (next : ledger.Next call) (sound : ledger.Sound) (fresh : ledger.Fresh stamp.id) :
    Unconstrained (call.perform stamp ledger).1 := by
  cases next with
  | request new => exact Call.createRequest_unconstrained
  | machines holds plan =>
    exact Call.createInstances_unconstrained sound holds (planInstances_nodup plan)
  | both plan =>
    exact Call.createRequestWithInstances_unconstrained sound fresh (planInstances_nodup plan)

/-- A request that has just been recorded is there and has no machines, in a ledger that still agrees
with itself. -/
theorem Store.admitCall_createRequest {store after : Store} {new : NewRequest} {request : RequestRow}
    (memory : store.backend = .memory) (sound : store.ledger.Sound)
    (fresh : store.ledger.Fresh store.nextStamp.id)
    (made : store.admitCall (.createRequest new) = (.ok request, after)) :
    after.backend = .memory ∧ after.ledger.Sound ∧ after.ledger.Holds ⟨request, []⟩ := by
  obtain ⟨outcome, ledger⟩ := admitCall_memory memory (.createRequest new)
  have performed := Call.createRequest_ok (outcome.symm.trans (congrArg Prod.fst made))
  have change : Call.Change store.nextStamp store.ledger (.createRequest new) _ :=
    Call.perform_change (.createRequest new)
  have same : after.backend = .memory := by
    have kept : (store.admitCall (.createRequest new)).2.backend = .memory := by
      simp only [admitCall, memory]
    rwa [made] at kept
  rw [made, performed] at outcome ledger
  rw [performed] at change
  cases outcome
  rw [ledger]
  exact ⟨same, sound.change change, by simp,
    Ledger.machinesOf_extended_nil.trans (sound.machinesOf_fresh fresh)⟩

/-- In an open store that does not fail, the request of a deployment that is recorded in turn is
written, and its machines are next. -/
theorem Dialogue.Step.request_of_open {config : AdmissionConfig} {store : Store} {new : NewRequest}
    (limit : Duration) (isOpen : store.Open) (working : store.ledger.faults.requestWrites = false)
    (inTurn : config.atomic = false) (deploy : new.operation = .deploy) :
    (recordRequest config new).Step limit store
      (recordInstances config.maxVmsPerDeploy (new.row store.nextStamp) new.metadata)
      (store.performed (.createRequest new)) := by
  have made : ((Call.createRequest new).perform store.nextStamp store.ledger).1 =
      .ok (new.row store.nextStamp) := by
    rw [Call.perform_createRequest, working]
    rfl
  have asks : recordRequest config new = recordInTurn config.maxVmsPerDeploy new :=
    if_neg fun atOnce => absurd atOnce.2 (by simp [inTurn])
  have step : (recordInTurn config.maxVmsPerDeploy new).Step limit store _ _ :=
    .of_open limit isOpen (.createRequest new) _
  rw [made] at step
  simp only [if_pos deploy] at step
  rw [asks]
  exact step

namespace System

/-- Planned machines have names of their own, and no rule of the ledger is ever broken by recording
them: not by recording them at once with a new request, not by recording them right after it, and not
by whatever an order does next while any other orders are handled, all of this on a store that any
calls have been made to before. -/
theorem Step.all_unconstrained {stamps : Nat → Stamp} {store : Store}
    (reach : StoreReach stamps store) {authors : List (Uuid × Order)} {later : System}
    (steps : ReflTransGen Step ⟨store, [], authors⟩ later)
    (distinct : DistinctIds stamps (later.store.issued + 1)) :
    (∀ metadata limit planned, planInstances metadata limit = .ok planned →
      (planned.map (·.vmName)).Nodup) ∧
    (∀ new limit planned, planInstances new.metadata limit = .ok planned →
      Unconstrained (later.store.admitCall (.createRequestWithInstances new planned)).1 ∧
      ∀ request after, later.store.admitCall (.createRequest new) = (.ok request, after) →
        Unconstrained (after.admitCall (.createInstances request.id planned)).1) ∧
    ∀ caller ∈ later.callers, ∀ call resume, caller.ahead = .call call resume →
      Unconstrained (later.store.admitCall call).1 := by
  have reached := Step.all_reach reach steps
  have sound := reached.sound
  have fresh := reached.fresh distinct
  obtain ⟨tenants, held⟩ :=
    Step.all_tenants_kept reach steps (distinct.mono (Nat.le_succ _)) .none
  refine ⟨fun _ _ _ => planInstances_nodup, fun new limit planned plan => ⟨?_, ?_⟩, ?_⟩
  · rw [(Store.admitCall_memory reached.backend _).1]
    exact (Ledger.Next.both plan).unconstrained sound fresh
  · intro request after made
    obtain ⟨memory, stillSound, holds⟩ :=
      Store.admitCall_createRequest reached.backend sound fresh made
    rw [(Store.admitCall_memory memory _).1]
    exact Call.createInstances_unconstrained stillSound holds (planInstances_nodup plan)
  · intro caller member call resume asks
    -- What a caller asks for next can be told from the request that it holds.
    rw [← held.callers] at member
    obtain ⟨tenant, among, rfl⟩ := List.mem_map.mp member
    have tenure := held.tenures tenant among
    rw [asks] at tenure
    rw [(Store.admitCall_memory reached.backend call).1]
    exact tenure.next.unconstrained sound fresh

/-- Two deployments of machines with the same names, at a time at which the requests of both are
written and the machines of none. -/
theorem Step.all_unconstrained_same_names :
    let services : Services := .uniform .none .crash
    let order : DeployOrder := .ofMachines "web_1" 2
    ∃ later, StoreReach Stamp.numbered { stamps := Stamp.numbered } ∧
      ReflTransGen Step ⟨{ stamps := Stamp.numbered }, [], []⟩ later ∧
      DistinctIds Stamp.numbered (later.store.issued + 1) ∧
      later.callers.map (·.order) = [.deploy {} services order {}, .deploy {} services order {}] ∧
      order.machines.map (·.vmName) = ["web_1_1", "web_1_2"] ∧
      ∀ caller ∈ later.callers, ∃ id resume,
        caller.ahead = .call (.createInstances id order.machines) resume ∧
        Unconstrained (later.store.admitCall (.createInstances id order.machines)).1 := by
  intro services order
  let deploy : Order := .deploy {} services order {}
  let new : NewRequest := Scope.newRequest {} .deploy .new order.text
  let begun : Caller := ⟨deploy, recordRequest {} new⟩
  let machines (store : Store) : Dialogue Recorded :=
    recordInstances 1000 (new.row store.nextStamp) order.text
  let empty : Store := { stamps := Stamp.numbered }
  let half : Store := empty.performed (.createRequest new)
  have writes (store : Store) (isOpen : store.Open)
      (working : store.ledger.faults.requestWrites = false) :
      (recordRequest {} new).Step (.ofSeconds 10) store (machines store)
        (store.performed (.createRequest new)) :=
    .request_of_open _ isOpen working rfl rfl
  have ordered : ReflTransGen Step ⟨empty, [], []⟩ ⟨empty, [begun, begun], []⟩ :=
    (ReflTransGen.single (.passed deploy rfl)).tail (.passed deploy rfl)
  obtain ⟨once, first⟩ : ∃ authors, Step ⟨empty, [begun, begun], []⟩
      ⟨half, [⟨deploy, machines empty⟩, begun], authors⟩ :=
    ⟨_, @Step.called ⟨empty, [begun, begun], []⟩ [] [begun] begun _ _ rfl
      (writes empty ⟨rfl, rfl⟩ rfl)⟩
  have second := @Step.called ⟨half, [⟨deploy, machines empty⟩, begun], once⟩
    [⟨deploy, machines empty⟩] [] begun _ _ rfl (writes half ⟨rfl, rfl⟩ rfl)
  have steps := (ordered.tail first).tail second
  have reach : StoreReach Stamp.numbered empty := .start
  have distinct : DistinctIds Stamp.numbered 3 := distinctIds_numbered (by decide)
  have waits (store : Store) : ∃ resume, (⟨deploy, machines store⟩ : Caller).ahead =
      .call (.createInstances (new.row store.nextStamp).id order.machines) resume := by
    simp only [machines, recordInstances, planInstances_text]
    exact ⟨_, rfl⟩
  obtain ⟨-, -, unconstrained⟩ := Step.all_unconstrained reach steps distinct
  refine ⟨_, reach, steps, distinct, rfl, by decide, fun caller member => ?_⟩
  have asks : ∃ id resume, caller.ahead = .call (.createInstances id order.machines) resume := by
    rcases List.mem_cons.mp member with rfl | last
    · exact ⟨_, waits empty⟩
    · cases List.mem_singleton.mp last
      exact ⟨_, waits half⟩
  obtain ⟨id, resume, asked⟩ := asks
  exact ⟨id, resume, asked, unconstrained caller member _ resume asked⟩

end System

end VmAdmission
