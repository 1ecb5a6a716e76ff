import VmAdmission.Proofs.Readers

namespace VmAdmission

open Relation (ReflTransGen)

/-- The ledger has the request, and of its machines just those, in order. -/
structure Ledger.Holds (ledger : Ledger) (recorded : Recorded) : Prop where
  there : recorded.request ∈ ledger.requests
  machines : ledger.machinesOf recorded.request.id = recorded.instances

section

variable {stamps : Nat → Stamp} {store : Store} {limit : Duration} {call : Call}

theorem StoreReach.fresh_of_ok (reach : StoreReach stamps store) {answer : call.Answer}
    (ok : (store.answerWithin limit call).outcome = .ok answer)
    (distinct : DistinctIds stamps (store.answerWithin limit call).store.issued) :
    store.ledger.Fresh store.nextStamp.id := by
  obtain ⟨-, same⟩ := Store.answerWithin_ok reach.backend ok
  rw [same] at distinct
  exact reach.fresh distinct

theorem Dialogue.run_reach {α : Type} (dialogue : Dialogue α) (reach : StoreReach stamps store) :
    StoreReach stamps (dialogue.run limit store).store := by
  induction dialogue generalizing store with
  | done result => exact reach
  | call c resume ih => exact ih _ (.called limit c reach)
  | both c d resume ih => exact ih _ _ (.called limit d (.called limit c reach))

theorem Submission.run_reach {α : Type} (submission : Submission α)
    (reach : StoreReach stamps store) : StoreReach stamps (submission.run limit store).store := by
  unfold run
  cases submission.check.result with
  | error halt => exact reach
  | ok dialogue => exact dialogue.run_reach reach

namespace Ledger.Holds

variable {recorded : Recorded} {request row : RequestRow} {rows : List InstanceRow}
  {new : NewRequest} {news : List NewInstance}

/-- Only a call for machines of the request itself can change what is held of it. -/
theorem answered (holds : store.ledger.Holds recorded) (reach : StoreReach stamps store)
    (distinct : DistinctIds stamps (store.answerWithin limit call).store.issued)
    (other : ∀ news, call ≠ .createInstances recorded.request.id news) :
    (store.answerWithin limit call).store.ledger.Holds recorded := by
  refine ⟨Store.requests_subset_answerWithin reach.backend limit call holds.there, ?_⟩
  rw [← holds.machines]
  obtain same | ⟨fresh, change⟩ := reach.answered distinct
  · rw [same]
  · revert change
    generalize (store.answerWithin limit call).store.ledger = after
    intro change
    cases change with
    | none => rfl
    | request new => exact machinesOf_extended_nil
    | both new free => exact machinesOf_extended_other (fresh _ holds.there).symm
    | @instances id news parent free =>
      exact machinesOf_extended_other fun same => other news (same ▸ rfl)

theorem of_request (reach : StoreReach stamps store)
    (ok : (store.answerWithin limit (.createRequest new)).outcome = .ok row)
    (distinct : DistinctIds stamps (store.answerWithin limit (.createRequest new)).store.issued) :
    row = new.row store.nextStamp ∧
      (store.answerWithin limit (.createRequest new)).store.ledger.Holds ⟨row, []⟩ := by
  have fresh := reach.fresh_of_ok ok distinct
  obtain ⟨made, same⟩ := Store.answerWithin_ok reach.backend ok
  have performed := Call.createRequest_ok made
  rw [performed] at made
  cases made
  rw [same, Store.performed, performed]
  exact ⟨rfl, by simp, machinesOf_extended_nil.trans (reach.sound.machinesOf_fresh fresh)⟩

theorem of_machines (holds : store.ledger.Holds ⟨request, []⟩) (reach : StoreReach stamps store)
    (ok : (store.answerWithin limit (.createInstances request.id news)).outcome = .ok rows) :
    (store.answerWithin limit (.createInstances request.id news)).store.ledger.Holds
      ⟨request, rows⟩ := by
  obtain ⟨made, same⟩ := Store.answerWithin_ok reach.backend ok
  have performed := Call.createInstances_ok made
  rw [performed] at made
  cases made
  rw [same, Store.performed, performed]
  refine ⟨by simpa using holds.there, machinesOf_extended_same.trans ?_⟩
  rw [holds.machines, List.nil_append]

theorem of_both (reach : StoreReach stamps store)
    (ok : (store.answerWithin limit (.createRequestWithInstances new news)).outcome =
      .ok (row, rows))
    (distinct : DistinctIds stamps
      (store.answerWithin limit (.createRequestWithInstances new news)).store.issued) :
    row = new.row store.nextStamp ∧
      (store.answerWithin limit (.createRequestWithInstances new news)).store.ledger.Holds
        ⟨row, rows⟩ := by
  have fresh := reach.fresh_of_ok ok distinct
  obtain ⟨made, same⟩ := Store.answerWithin_ok reach.backend ok
  have performed := Call.createRequestWithInstances_ok made
  rw [performed] at made
  cases made
  rw [same, Store.performed, performed]
  refine ⟨rfl, by simp, machinesOf_extended_same.trans ?_⟩
  rw [reach.sound.machinesOf_fresh fresh, List.nil_append]

end Ledger.Holds

end

theorem Dialogue.of_given_eq_done {α β : Type} {value : Except RequestError α}
    {next : α → Dialogue β} {result : β} (done : given value next = .done (.ok result)) :
    ∃ found, value = .ok found ∧ next found = .done (.ok result) := by
  cases value with
  | error => cases done
  | ok found => exact ⟨found, rfl, done⟩

/-- How far an order is, and the id of its own request once that is written: nothing is written, the
request is written and no machines are, the order is answered, or it has failed. -/
inductive Order.Tenure (ledger : Ledger) (order : Order) : Option Uuid → Dialogue Recorded → Prop
  | waiting (new : NewRequest) : Tenure ledger order none (recordRequest order.config.admission new)
  | machines {request : RequestRow} (holds : ledger.Holds ⟨request, []⟩) :
      Tenure ledger order (some request.id)
        (recordInstances order.config.admission.maxVmsPerDeploy request request.metadata)
  | answered {recorded : Recorded} (holds : ledger.Holds recorded) :
      Tenure ledger order (some recorded.request.id) (.done (.ok recorded))
  | failed (error : RequestError) : Tenure ledger order none (.fail error)

namespace Order.Tenure

variable {ledger after : Ledger} {order : Order} {own : Option Uuid}
  {ahead : Dialogue Recorded}

theorem kept (tenure : order.Tenure ledger own ahead)
    (kept : ∀ recorded, own = some recorded.request.id → ledger.Holds recorded →
      after.Holds recorded) : order.Tenure after own ahead := by
  cases tenure with
  | waiting new => exact .waiting new
  | machines holds => exact .machines (kept _ rfl holds)
  | answered holds => exact .answered (kept _ rfl holds)
  | failed error => exact .failed error

/-- The request that an order has for its own is there. -/
theorem there {id : Uuid} (tenure : order.Tenure ledger (some id) ahead) : ¬ ledger.Fresh id := by
  cases tenure with
  | machines holds => exact fun fresh => fresh _ holds.there rfl
  | answered holds => exact fun fresh => fresh _ holds.there rfl

/-- Whatever an order that has ended is answered with is held. -/
theorem holds {recorded : Recorded} (tenure : order.Tenure ledger own (.done (.ok recorded))) :
    ledger.Holds recorded := by
  generalize answer : Dialogue.done (.ok recorded) = ended at tenure
  cases tenure with
  | waiting new =>
    unfold recordRequest at answer
    split at answer
    · obtain ⟨planned, -, asked⟩ := Dialogue.of_given_eq_done answer.symm
      cases asked
    · cases answer
  | machines holds =>
    obtain ⟨planned, -, asked⟩ := Dialogue.of_given_eq_done answer.symm
    split at asked <;> cases asked
    exact holds
  | answered holds =>
    cases answer
    exact holds
  | failed error => cases answer

/-- An order goes on with the request that it has, or with one that is new. The only machines that
it asks for are those of its own request. -/
theorem step {stamps : Nat → Stamp} {store last : Store} {limit : Duration}
    {next : Dialogue Recorded} (tenure : order.Tenure store.ledger own ahead)
    (reach : StoreReach stamps store) (step : ahead.Step limit store next last)
    (distinct : DistinctIds stamps last.issued) :
    ∃ call still, last = (store.answerWithin limit call).store ∧
      order.Tenure last.ledger still next ∧
      (∀ id, still = some id → own = some id ∨ store.ledger.Fresh id) ∧
      ∀ id news, call = .createInstances id news → own = some id := by
  cases tenure with
  | answered | failed => cases step
  | @machines request holds =>
    obtain ⟨planned, plan, step⟩ := Dialogue.Step.of_given step
    split at step
    · cases step
    obtain ⟨rfl, ⟨rows, ok, rfl⟩ | ⟨error, rfl⟩⟩ := step.of_ask
    · exact ⟨_, _, rfl, .answered (holds.of_machines reach ok), fun _ => .inl,
        fun _ _ same => by cases same; rfl⟩
    · exact ⟨_, _, rfl, .failed error, nofun, fun _ _ same => by cases same; rfl⟩
  | waiting new =>
    unfold recordRequest at step
    split at step
    · obtain ⟨planned, plan, step⟩ := Dialogue.Step.of_given step
      obtain ⟨rfl, ⟨⟨row, rows⟩, ok, rfl⟩ | ⟨error, rfl⟩⟩ := step.of_ask
      · obtain ⟨rfl, holds⟩ := Ledger.Holds.of_both reach ok distinct
        refine ⟨_, _, rfl, .answered holds, ?_, nofun⟩
        rintro _ ⟨⟩
        exact .inr (reach.fresh_of_ok ok distinct)
      · exact ⟨_, _, rfl, .failed error, nofun, nofun⟩
    · obtain ⟨rfl, ⟨row, ok, rfl⟩ | ⟨error, rfl⟩⟩ := Dialogue.Step.of_ask step
      · obtain ⟨rfl, holds⟩ := Ledger.Holds.of_request reach ok distinct
        refine ⟨_, some store.nextStamp.id, rfl, ?_, ?_, nofun⟩
        · split
          · exact .machines holds
          · exact .answered holds
        · rintro _ ⟨⟩
          exact .inr (reach.fresh_of_ok ok distinct)
      · exact ⟨_, _, rfl, .failed error, nofun, nofun⟩

end Order.Tenure

/-- A caller, and the id of its own request once that is written. -/
structure Tenant where
  caller : Caller
  own : Option Uuid

/-- The callers have no request in common. -/
def Tenant.Apart (one other : Tenant) : Prop :=
  ∀ id, one.own = some id → other.own ≠ some id

theorem Tenant.Apart.symm {one other : Tenant} (apart : one.Apart other) : other.Apart one :=
  fun id mine yours => apart id yours mine

/-- The callers of a system with their requests, which are all different. -/
structure System.Tenants (system : System) (tenants : List Tenant) : Prop where
  callers : tenants.map (·.caller) = system.callers
  tenures : ∀ tenant ∈ tenants,
    tenant.caller.order.Tenure system.store.ledger tenant.own tenant.caller.ahead
  apart : tenants.Pairwise Tenant.Apart

namespace System

variable {stamps : Nat → Stamp} {system after later : System} {tenants : List Tenant}

/-- Nobody has anything in a system without callers. -/
theorem Tenants.none {store : Store} {authors : List (Uuid × Order)} :
    Tenants ⟨store, [], authors⟩ [] :=
  ⟨rfl, fun _ member => absurd member List.not_mem_nil, .nil⟩

/-- As long as the rows are the same, nothing changes for the callers. -/
theorem Tenants.of_same (held : system.Tenants tenants) {store : Store}
    (requests : store.ledger.requests = system.store.ledger.requests)
    (instances : store.ledger.instances = system.store.ledger.instances) :
    Tenants { system with store } tenants where
  callers := held.callers
  tenures tenant member := (held.tenures tenant member).kept fun recorded _ holds =>
    ⟨requests ▸ holds.there, by rw [← holds.machines, Ledger.machinesOf, instances]; rfl⟩
  apart := held.apart

theorem Tenants.called {early late : List Tenant} {caller : Caller} {own : Option Uuid}
    {callers : List Caller} {authors grown : List (Uuid × Order)} {store last : Store}
    (held : Tenants ⟨store, callers, authors⟩ (early ++ ⟨caller, own⟩ :: late))
    (reach : StoreReach stamps store) {ahead : Dialogue Recorded} {limit : Duration}
    (step : caller.ahead.Step limit store ahead last) (distinct : DistinctIds stamps last.issued) :
    ∃ still, Tenants
      ⟨last, early.map (·.caller) ++ ⟨caller.order, ahead⟩ :: late.map (·.caller), grown⟩
      (early ++ ⟨⟨caller.order, ahead⟩, still⟩ :: late) := by
  have among (other : Tenant) (member : other ∈ early ++ late) :
      other ∈ early ++ ⟨caller, own⟩ :: late := by
    simp only [List.mem_append, List.mem_cons] at member ⊢
    tauto
  have tenures := held.tenures
  obtain ⟨apart, rest⟩ := List.pairwise_cons.mp
    ((List.pairwise_middle Tenant.Apart.symm).mp held.apart)
  obtain ⟨call, still, rfl, tenure, mine, asked⟩ :=
    (tenures ⟨caller, own⟩ (by simp)).step reach step distinct
  refine ⟨still, by simp, fun tenant member => ?_, ?_⟩
  · obtain rfl | other : tenant = ⟨⟨caller.order, ahead⟩, still⟩ ∨ tenant ∈ early ++ late := by
      simp only [List.mem_append, List.mem_cons] at member ⊢
      tauto
    · exact tenure
    · refine (tenures tenant (among tenant other)).kept fun recorded theirs holds => ?_
      exact holds.answered reach distinct fun news same =>
        apart tenant other _ (asked _ news same) theirs
  · refine (List.pairwise_middle Tenant.Apart.symm).mpr
      (List.pairwise_cons.mpr ⟨fun tenant other id now theirs => ?_, rest⟩)
    rcases mine id now with before | fresh
    · exact apart tenant other id before theirs
    · exact (theirs ▸ tenures tenant (among tenant other)).there fresh

theorem Step.tenants_kept (reach : StoreReach stamps system.store) (step : system.Step after)
    (distinct : DistinctIds stamps after.store.issued) (held : system.Tenants tenants) :
    ∃ kept, after.Tenants kept := by
  cases step with
  | @passed order dialogue passed =>
    obtain ⟨new, rfl, -⟩ := Order.record_of_passed passed
    let tenant : Tenant := ⟨⟨order, recordRequest order.config.admission new⟩, none⟩
    refine ⟨tenants ++ [tenant], ?_, ?_, ?_⟩
    · rw [List.map_append, held.callers]
      rfl
    · intro tenant member
      rcases List.mem_append.mp member with old | added
      · exact held.tenures tenant old
      · cases List.mem_singleton.mp added
        exact .waiting new
    · refine List.pairwise_append.mpr ⟨held.apart, List.pairwise_singleton _ _, ?_⟩
      intro one _ other added id _
      cases List.mem_singleton.mp added
      exact nofun
  | disturbed => exact ⟨tenants, held.of_same rfl rfl⟩
  | read limit reads =>
    obtain ⟨-, same⟩ := Store.answerWithin_reads reach.backend limit reads
    exact ⟨tenants, held.of_same (congrArg _ same) (congrArg _ same)⟩
  | @called early late caller ahead store waiting step =>
    obtain ⟨before, rest, rfl, rfl, there⟩ :=
      List.map_eq_append_iff.mp (held.callers.trans waiting)
    obtain ⟨⟨_, own⟩, behind, rfl, rfl, rfl⟩ := List.map_eq_cons_iff.mp there
    obtain ⟨still, kept⟩ := held.called reach step distinct
    exact ⟨_, kept⟩

/-- Whatever happens, the callers keep their requests. -/
theorem Step.all_tenants_kept (reach : StoreReach stamps system.store)
    (steps : ReflTransGen Step system later) (distinct : DistinctIds stamps later.store.issued)
    (held : system.Tenants tenants) : ∃ kept, later.Tenants kept := by
  induction steps with
  | refl => exact ⟨tenants, held⟩
  | tail earlier step ih =>
    have reached := Step.all_reach reach earlier
    obtain ⟨between, kept⟩ := ih (distinct.mono (step.before reached).issued)
    exact step.tenants_kept reached distinct kept

/-- What a caller is answered with is held. -/
theorem Tenants.holds (held : system.Tenants tenants) {order : Order} {recorded : Recorded}
    (answered : ⟨order, .done (.ok recorded)⟩ ∈ system.callers) :
    system.store.ledger.Holds recorded := by
  rw [← held.callers] at answered
  obtain ⟨⟨_, own⟩, member, rfl⟩ := List.mem_map.mp answered
  exact (held.tenures _ member).holds

/-- A caller that has been answered stays so. -/
theorem Step.answered_stays {order : Order} {result : Except RequestError Recorded}
    (step : system.Step after) (answered : ⟨order, .done result⟩ ∈ system.callers) :
    ⟨order, .done result⟩ ∈ after.callers := by
  cases step with
  | passed => exact List.mem_append_left _ answered
  | disturbed | read => exact answered
  | @called early late caller ahead store waiting step =>
    rw [waiting] at answered
    rcases List.mem_append.mp answered with left | right
    · exact List.mem_append_left _ left
    rcases List.mem_cons.mp right with rfl | right
    · cases step
    · exact List.mem_append_right _ (List.mem_cons_of_mem _ right)

theorem Step.all_answered_stay {order : Order} {result : Except RequestError Recorded}
    (steps : ReflTransGen Step system later) (answered : ⟨order, .done result⟩ ∈ system.callers) :
    ⟨order, .done result⟩ ∈ later.callers := by
  induction steps with
  | refl => exact answered
  | tail _ step ih => exact step.answered_stays ih

/-- One caller more does not keep the others from what they do. -/
theorem Step.beside (caller : Caller) (step : system.Step after) :
    Step { system with callers := caller :: system.callers }
      { after with callers := caller :: after.callers } := by
  cases step with
  | passed order passed => exact .passed order passed
  | disturbed gates faults => exact .disturbed gates faults
  | read limit reads => exact .read limit reads
  | @called early late other ahead store waiting step =>
    exact @Step.called ⟨system.store, caller :: system.callers, system.authors⟩ (caller :: early)
      late other ahead store (congrArg (caller :: ·) waiting) step

/-- An order that is recorded when it is handled by itself is answered. -/
theorem Step.all_of_ok {order : Order} {recorded : Recorded} (system : System)
    (ok : (order.submission.run order.config.admission.storeTimeout system.store).result =
      .ok recorded) :
    ∃ authors, ReflTransGen Step system
      ⟨(order.submission.run order.config.admission.storeTimeout system.store).store,
        system.callers ++ [⟨order, .done (.ok recorded)⟩], authors⟩ := by
  obtain ⟨dialogue, passed, result⟩ := Submission.run_ok_iff.mp ok
  have finished : (dialogue.run order.config.admission.storeTimeout system.store).result =
      .ok recorded := result
  obtain ⟨authors, steps⟩ := Step.all_of_passed system passed
  rw [finished, ← Submission.run_passed_store passed] at steps
  exact ⟨authors, steps⟩

end System

section

variable {stamps : Nat → Stamp} {store : Store} {recorded : Recorded}

/-- What an order is answered with when it is handled by itself is held. -/
theorem Ledger.Holds.of_ok (reach : StoreReach stamps store) {order : Order}
    (ok : (order.submission.run order.config.admission.storeTimeout store).result = .ok recorded)
    (distinct : DistinctIds stamps
      (order.submission.run order.config.admission.storeTimeout store).store.issued) :
    (order.submission.run order.config.admission.storeTimeout store).store.ledger.Holds
      recorded := by
  obtain ⟨authors, steps⟩ := System.Step.all_of_ok { store } ok
  obtain ⟨tenants, kept⟩ := System.Step.all_tenants_kept reach steps distinct .none
  exact kept.holds (List.mem_singleton_self _)

/-- What is held of a request that nobody works on is held from then on. -/
theorem Ledger.Holds.lasting (holds : store.ledger.Holds recorded) (reach : StoreReach stamps store)
    {authors : List (Uuid × Order)} {later : System}
    (steps : ReflTransGen System.Step ⟨store, [], authors⟩ later)
    (distinct : DistinctIds stamps later.store.issued) : later.store.ledger.Holds recorded := by
  -- The others do the same beside a caller that has been answered with it, whatever it ordered.
  let idle : Order := .submit {} (.uniform .none .crash) .delete ⟨"", none⟩ {}
  let caller : Caller := ⟨idle, .done (.ok recorded)⟩
  have alone : System.Tenants ⟨store, [caller], authors⟩ [⟨caller, some recorded.request.id⟩] := by
    refine ⟨rfl, fun tenant member => ?_, List.pairwise_singleton _ _⟩
    cases List.mem_singleton.mp member
    exact .answered holds
  have beside : ReflTransGen System.Step ⟨store, [caller], authors⟩
      { later with callers := caller :: later.callers } :=
    steps.lift (fun system => { system with callers := caller :: system.callers })
      fun _ _ step => step.beside caller
  obtain ⟨tenants, kept⟩ := System.Step.all_tenants_kept reach beside distinct alone
  exact kept.holds List.mem_cons_self

theorem Ledger.Holds.getRequest {ledger : Ledger} (holds : ledger.Holds recorded)
    (distinct : (ledger.requests.map (·.id)).Nodup) :
    ledger.getRequest recorded.request.id = .ok recorded.request := by
  rw [Ledger.getRequest]
  cases search : ledger.requests.find? fun row => row.id == recorded.request.id with
  | none => exact absurd (beq_self_eq_true _) (List.find?_eq_none.mp search _ holds.there)
  | some row =>
    have named := List.find?_some search
    rw [List.inj_on_of_nodup_map distinct (List.mem_of_find?_eq_some search) holds.there
      (eq_of_beq named)]

/-- Reads of single requests come through within the limit, and do not fail at the ledger. -/
structure Store.Readable (store : Store) (limit : Duration) : Prop where
  requests : store.LetsThrough limit .getRequest
  machines : store.LetsThrough limit .listInstances
  faultless : store.ledger.faults.instanceReads = false

theorem Store.Open.readable (isOpen : store.Open)
    (faultless : store.ledger.faults.instanceReads = false) (limit : Duration) :
    store.Readable limit :=
  ⟨isOpen.letsThrough limit _, isOpen.letsThrough limit _, faultless⟩

theorem Store.Readable.find_held {limit : Duration} (readable : store.Readable limit)
    (memory : store.backend = .memory) (distinct : (store.ledger.requests.map (·.id)).Nodup)
    (holds : store.ledger.Holds recorded) :
    ((findRequest recorded.request.id).run limit store).result = .ok recorded := by
  have through : store.LetsThrough limit (Call.getRequest recorded.request.id).method :=
    readable.requests
  obtain ⟨answered, after⟩ := through.answerWithin memory
  have request : (store.answerWithin limit (.getRequest recorded.request.id)).outcome =
      .ok recorded.request := answered.trans (holds.getRequest distinct)
  have machines : (store.performed (.getRequest recorded.request.id)).LetsThrough limit
      (Call.listInstances recorded.request.id).method :=
    ⟨readable.machines.inTime, readable.machines.unfailed⟩
  have instances : ((store.performed (.getRequest recorded.request.id)).answerWithin limit
      (.listInstances recorded.request.id)).outcome = .ok recorded.instances := by
    rw [(machines.answerWithin memory).1, ← holds.machines]
    simp only [Store.performed, Call.perform, Ledger.listInstances, Ledger.check,
      readable.faultless]
    rfl
  simp only [findRequest, Dialogue.run, Dialogue.Finished.delay, request, after, instances,
    emptyIfMissing, Dialogue.given]

theorem Store.Readable.find {limit : Duration} (readable : store.Readable limit)
    (reach : StoreReach stamps store) (distinct : DistinctIds stamps store.issued)
    (holds : store.ledger.Holds recorded) :
    ((findRequest recorded.request.id).run limit store).result = .ok recorded :=
  readable.find_held reach.backend (reach.ids_nodup distinct) holds

end

end VmAdmission
