import VmAdmission.Proofs.Readers

namespace VmAdmission

/-- An answer and a ledger for every stamp, which depend on the stamp only in the rows that bear
it. -/
inductive Stamped {α : Type} (before : Ledger) : (Stamp → α × Ledger) → Prop
  | all (new : NewRequest) (planned : List NewInstance) (writes : Nat) (answer : Recorded → α) :
      Stamped before fun stamp =>
        (answer (new.recorded planned stamp),
          before.deployed (new.recorded planned stamp) planned writes)
  | nothing (answer : α) : Stamped before fun _ => (answer, before)
  | requestOnly (new : NewRequest) (answer : α) :
      Stamped before fun stamp => (answer, before.deployed (new.recorded [] stamp) [] 1)

theorem Stamped.map {α β : Type} {before : Ledger} {outcome : Stamp → α × Ledger}
    (stamped : Stamped before outcome) (f : α → β) :
    Stamped before fun stamp => (f (outcome stamp).1, (outcome stamp).2) := by
  cases stamped with
  | all new planned writes answer => exact .all new planned writes (f ∘ answer)
  | nothing answer => exact .nothing (f answer)
  | requestOnly new answer => exact .requestOnly new (f answer)

namespace Store

/-- The store with other stamps for new requests. -/
def withStamps (store : Store) (stamps : Nat → Stamp) : Store :=
  { store with stamps }

/-- What a run on the store comes to depends on the stamp of the next request only in the rows that
bear it, as long as its id is fresh. -/
def OnlyStamped {α : Type} (store : Store) (run : Store → α × Ledger) : Prop :=
  ∃ outcome, Stamped store.ledger outcome ∧
    ∀ stamps, store.ledger.Fresh (stamps store.issued).id →
      run (store.withStamps stamps) = outcome (stamps store.issued)

theorem OnlyStamped.map {α β : Type} {store : Store} {run : Store → α × Ledger}
    (stamped : store.OnlyStamped run) (f : α → β) :
    store.OnlyStamped fun store => (f (run store).1, (run store).2) := by
  obtain ⟨outcome, rows, same⟩ := stamped
  refine ⟨_, rows.map f, fun stamps fresh => ?_⟩
  simp only [same stamps fresh]

theorem onlyStamped_same {α : Type} {store : Store} {run : Store → α × Ledger} (answer : α)
    (same : ∀ stamps, run (store.withStamps stamps) = (answer, store.ledger)) :
    store.OnlyStamped run :=
  ⟨_, .nothing answer, fun stamps _ => same stamps⟩

/-- The store after a new request has been written to it, the first under other stamps. -/
def written (store : Store) (new : NewRequest) (stamps : Nat → Stamp) : Store :=
  { store.withStamps stamps with
    ledger := store.ledger.deployed (new.recorded [] (stamps store.issued)) [] 1
    issued := store.issued + 1 }

theorem hasRequest_written (store : Store) (new : NewRequest) (stamps : Nat → Stamp) :
    (store.written new stamps).ledger.hasRequest (stamps store.issued).id = true := by
  refine Ledger.hasRequest_iff.mpr ⟨new.row (stamps store.issued), ?_, rfl⟩
  exact List.mem_append_right _ (List.mem_singleton_self _)

/-- What keeps the calls of a method from coming through to the ledger. -/
def hindrance? (store : Store) (limit : Duration) (method : Method) : Option StoreError :=
  match (store.gates method).latency.within? limit with
  | none => some (.unavailable (.tooSlow limit))
  | some _ =>
    match (store.gates method).error, store.backend with
    | some e, _ => some e
    | none, .closedPool => some (.ofDatabase .poolClosed)
    | none, .memory => none

variable {store : Store} {limit : Duration} {call : Call}

theorem answerWithin_hindered {e : StoreError}
    (hindered : store.hindrance? limit call.method = some e) :
    (store.answerWithin limit call).outcome = .error e ∧
      (store.answerWithin limit call).store = store := by
  unfold hindrance? at hindered
  split at hindered
  · rename_i late
    cases hindered
    simp only [answerWithin, late, and_self]
  · rename_i elapsed inTime
    split at hindered
    · rename_i other backend gate
      cases hindered
      simp only [answerWithin, inTime, answer, gate, and_self]
    · rename_i gate closed
      cases hindered
      simp only [answerWithin, inTime, answer, gate, admitCall, closed, and_self]
    · cases hindered

theorem answerWithin_free (free : store.hindrance? limit call.method = none) :
    (store.answerWithin limit call).outcome = (call.perform store.nextStamp store.ledger).1 ∧
      (store.answerWithin limit call).store = store.performed call := by
  unfold hindrance? at free
  split at free
  · cases free
  · rename_i elapsed inTime
    split at free
    · cases free
    · cases free
    · rename_i gate memory
      have through : store.LetsThrough limit call.method := ⟨by simp [inTime], gate⟩
      exact through.answerWithin memory

end Store

namespace Dialogue

variable {α : Type} {limit : Duration} {store : Store} {c : Call} {next : c.Answer → Dialogue α}

theorem effect_ask_hindered {e : StoreError}
    (hindered : store.hindrance? limit c.method = some e) :
    (ask c next).effect limit store = (.error (.storage e), store.ledger) := by
  obtain ⟨failed, same⟩ := Store.answerWithin_hindered hindered
  rw [effect_ask_error failed, same]

theorem effect_ask_free (free : store.hindrance? limit c.method = none) {answer : c.Answer}
    {after : Ledger} (performed : c.perform store.nextStamp store.ledger = (.ok answer, after)) :
    (ask c next).effect limit store =
      (next answer).effect limit { store with ledger := after, issued := store.issued + 1 } := by
  obtain ⟨outcome, same⟩ := Store.answerWithin_free free
  rw [performed] at outcome
  rw [effect_ask_ok outcome, same, Store.performed, performed]

theorem effect_ask_free_error (free : store.hindrance? limit c.method = none) {e : StoreError}
    {after : Ledger} (performed : c.perform store.nextStamp store.ledger = (.error e, after)) :
    (ask c next).effect limit store = (.error (.storage e), after) := by
  obtain ⟨outcome, same⟩ := Store.answerWithin_free free
  rw [performed] at outcome
  rw [effect_ask_error outcome, same, Store.performed, performed]

end Dialogue

section

variable {store : Store} {limit : Duration} {most : UInt32} {new : NewRequest}

theorem recordAtOnce_stamped (sound : store.ledger.Sound) :
    store.OnlyStamped ((recordAtOnce most new).effect limit) := by
  unfold recordAtOnce
  cases plan : planInstances new.metadata most with
  | error e => exact ⟨_, .nothing (.error e), fun _ _ => rfl⟩
  | ok planned =>
    simp only [Dialogue.given]
    let call : Call := .createRequestWithInstances new planned
    have performs {stamps : Nat → Stamp} (fresh : store.ledger.Fresh (stamps store.issued).id) :=
      Call.perform_createRequestWithInstances new (sound.free fresh (planInstances_nodup plan))
    cases hindered : store.hindrance? limit call.method with
    | some e =>
      refine ⟨_, .nothing (.error (.storage e)), fun stamps _ => ?_⟩
      exact Dialogue.effect_ask_hindered hindered
    | none =>
      have free (stamps : Nat → Stamp) :
          (store.withStamps stamps).hindrance? limit call.method = none := hindered
      by_cases failing : store.ledger.faults.requestWrites
      · refine ⟨_, .nothing (.error (.injected .requestWrites)), fun stamps fresh => ?_⟩
        exact Dialogue.effect_ask_free_error (free stamps) ((performs fresh).trans (if_pos failing))
      by_cases alsoFailing : !planned.isEmpty && store.ledger.faults.instanceWrites
      · refine ⟨_, .nothing (.error (.injected .instanceWrites)), fun stamps fresh => ?_⟩
        exact Dialogue.effect_ask_free_error (free stamps)
          ((performs fresh).trans ((if_neg failing).trans (if_pos alsoFailing)))
      · refine ⟨_, .all new planned 1 .ok, fun stamps fresh => ?_⟩
        exact Dialogue.effect_ask_free (free stamps)
          ((performs fresh).trans ((if_neg failing).trans (if_neg alsoFailing)))

/-- The machines of a request that has just been written, the first under other stamps. -/
theorem recordInstances_stamped (sound : store.ledger.Sound) :
    ∃ outcome, Stamped store.ledger outcome ∧
      ∀ stamps, store.ledger.Fresh (stamps store.issued).id →
        (recordInstances most (new.row (stamps store.issued)) new.metadata).effect limit
          (store.written new stamps) = outcome (stamps store.issued) := by
  unfold recordInstances
  cases plan : planInstances new.metadata most with
  | error e => exact ⟨_, .requestOnly new (.error e), fun _ _ => rfl⟩
  | ok planned =>
    simp only [Dialogue.given]
    by_cases none : planned.isEmpty
    · exact ⟨_, .all new [] 1 .ok, fun _ _ => by rw [if_pos none]; rfl⟩
    simp only [if_neg none]
    have performs {stamps : Nat → Stamp} (fresh : store.ledger.Fresh (stamps store.issued).id) :=
      Call.perform_createInstances (store.written new stamps).nextStamp
        (store.hasRequest_written new stamps) (sound.free fresh (planInstances_nodup plan))
    cases hindered : store.hindrance? limit .createInstances with
    | some e =>
      refine ⟨_, .requestOnly new (.error (.storage e)), fun stamps _ => ?_⟩
      exact Dialogue.effect_ask_hindered hindered
    | none =>
      by_cases failing : store.ledger.faults.instanceWrites
      · refine ⟨_, .requestOnly new (.error (.injected .instanceWrites)), fun stamps fresh => ?_⟩
        exact Dialogue.effect_ask_free_error hindered ((performs fresh).trans (if_pos failing))
      · refine ⟨_, .all new planned 2 .ok, fun stamps fresh => ?_⟩
        have performed := (performs fresh).trans (if_neg failing)
        exact (Dialogue.effect_ask_free hindered performed).trans <| congrArg (Prod.mk _) <|
          store.ledger.extended_deployed (new.recorded planned (stamps store.issued)) planned

theorem recordInTurn_stamped (sound : store.ledger.Sound) :
    store.OnlyStamped ((recordInTurn most new).effect limit) := by
  unfold recordInTurn
  cases hindered : store.hindrance? limit .createRequest with
  | some e =>
    refine ⟨_, .nothing (.error (.storage e)), fun stamps _ => ?_⟩
    exact Dialogue.effect_ask_hindered hindered
  | none =>
    by_cases failing : store.ledger.faults.requestWrites
    · refine ⟨_, .nothing (.error (.injected .requestWrites)), fun stamps _ => ?_⟩
      exact Dialogue.effect_ask_free_error hindered
        ((Call.perform_createRequest new).trans (if_pos failing))
    have goesOn (stamps : Nat → Stamp) (next : RequestRow → Dialogue Recorded) :
        (Dialogue.ask (.createRequest new) next).effect limit (store.withStamps stamps) =
          (next (new.row (stamps store.issued))).effect limit (store.written new stamps) :=
      Dialogue.effect_ask_free hindered ((Call.perform_createRequest new).trans (if_neg failing))
    simp only [Store.OnlyStamped, goesOn]
    split
    · exact recordInstances_stamped sound
    · exact ⟨_, .all new [] 1 .ok, fun _ _ => rfl⟩

theorem recordRequest_stamped (config : AdmissionConfig) (sound : store.ledger.Sound) :
    store.OnlyStamped ((recordRequest config new).effect limit) := by
  unfold recordRequest
  split
  · exact recordAtOnce_stamped sound
  · exact recordInTurn_stamped sound

end

namespace Store

/-- The stores are the same but for the stamps and how many of them are used up. -/
structure Alike (store other : Store) : Prop where
  backend : other.backend = store.backend
  gates : other.gates = store.gates
  ledger : other.ledger = store.ledger

theorem alike_withStamps (store : Store) (stamps : Nat → Stamp) :
    store.Alike (store.withStamps stamps) :=
  ⟨rfl, rfl, rfl⟩

variable {store other : Store} {limit : Duration} {call : Call}

theorem Alike.symm (alike : store.Alike other) : other.Alike store :=
  ⟨alike.backend.symm, alike.gates.symm, alike.ledger.symm⟩

theorem Alike.trans {last : Store} (alike : store.Alike other) (later : other.Alike last) :
    store.Alike last :=
  ⟨later.backend.trans alike.backend, later.gates.trans alike.gates,
    later.ledger.trans alike.ledger⟩

theorem Alike.hindrance?_eq (alike : store.Alike other) (method : Method) :
    other.hindrance? limit method = store.hindrance? limit method := by
  simp only [hindrance?, alike.backend, alike.gates]

theorem answerWithin_alike (reads : call.Reads) :
    store.Alike (store.answerWithin limit call).store := by
  cases hindered : store.hindrance? limit call.method with
  | some e =>
    rw [(answerWithin_hindered hindered).2]
    exact ⟨rfl, rfl, rfl⟩
  | none =>
    rw [(answerWithin_free hindered).2]
    exact ⟨rfl, rfl, (store.performed_change call).of_reads reads⟩

theorem Alike.outcome_eq (alike : store.Alike other) (reads : call.Reads) :
    (other.answerWithin limit call).outcome = (store.answerWithin limit call).outcome := by
  have same : other.hindrance? limit call.method = store.hindrance? limit call.method :=
    alike.hindrance?_eq call.method
  cases hindered : store.hindrance? limit call.method with
  | some e =>
    rw [(answerWithin_hindered hindered).1, (answerWithin_hindered (same.trans hindered)).1]
  | none =>
    rw [(answerWithin_free hindered).1, (answerWithin_free (same.trans hindered)).1, alike.ledger]
    cases call with
    | createRequest | createInstances | createRequestWithInstances => exact reads.elim
    | getRequest | listInstances | listRequests | listAllInstances => rfl

theorem Alike.answerWithin (alike : store.Alike other) (reads : call.Reads) :
    (store.answerWithin limit call).store.Alike (other.answerWithin limit call).store :=
  (answerWithin_alike reads).symm.trans (alike.trans (answerWithin_alike reads))

end Store

/-- What is read does not depend on the stamps, and nothing is written. -/
theorem Dialogue.Reads.effect_alike {α : Type} {dialogue : Dialogue α} (reads : dialogue.Reads)
    {limit : Duration} {store other : Store} (alike : store.Alike other) :
    dialogue.effect limit other = ((dialogue.effect limit store).1, store.ledger) := by
  induction reads generalizing store other with
  | done result => exact congrArg (Prod.mk result) alike.ledger
  | @call c resume reads next ih =>
    have after : store.Alike (store.answerWithin limit c).store := Store.answerWithin_alike reads
    have same : (other.answerWithin limit c).outcome = (store.answerWithin limit c).outcome :=
      alike.outcome_eq reads
    have rest := ih (store.answerWithin limit c).outcome
      (alike.answerWithin reads : (store.answerWithin limit c).store.Alike _)
    rw [after.ledger] at rest
    simp only [effect, run, Finished.delay, same] at rest ⊢
    exact rest
  | @both c d resume first second next ih =>
    have after : store.Alike (store.answerWithin limit c).store := Store.answerWithin_alike first
    have last : store.Alike ((store.answerWithin limit c).store.answerWithin limit d).store :=
      after.trans (Store.answerWithin_alike second)
    have between : (store.answerWithin limit c).store.Alike (other.answerWithin limit c).store :=
      alike.answerWithin first
    have same : (other.answerWithin limit c).outcome = (store.answerWithin limit c).outcome :=
      alike.outcome_eq first
    have alsoSame : ((other.answerWithin limit c).store.answerWithin limit d).outcome =
        ((store.answerWithin limit c).store.answerWithin limit d).outcome :=
      between.outcome_eq second
    have rest := ih (store.answerWithin limit c).outcome
      ((store.answerWithin limit c).store.answerWithin limit d).outcome
      (between.answerWithin second :
        ((store.answerWithin limit c).store.answerWithin limit d).store.Alike _)
    rw [last.ledger] at rest
    simp only [effect, run, Finished.delay, same, alsoSame] at rest ⊢
    exact rest

theorem Dialogue.Reads.onlyStamped {α : Type} {dialogue : Dialogue α} (reads : dialogue.Reads)
    (limit : Duration) (store : Store) : store.OnlyStamped (dialogue.effect limit) :=
  Store.onlyStamped_same _ fun stamps => reads.effect_alike (store.alike_withStamps stamps)

end VmAdmission
