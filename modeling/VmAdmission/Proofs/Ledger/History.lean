import VmAdmission.Proofs.Ledger.Reach

namespace VmAdmission

/-- The call is one that writes. -/
def Call.isWrite : Call → Bool
  | createRequest _ => true
  | createInstances _ _ => true
  | createRequestWithInstances _ _ => true
  | _ => false

/-- The number of writes counts a call exactly if it is a write that succeeds. -/
theorem Call.perform_writes (stamp : Stamp) (ledger : Ledger) (call : Call) :
    (call.perform stamp ledger).2.writes =
      ledger.writes + if call.isWrite && (call.perform stamp ledger).1.isOk then 1 else 0 := by
  cases outcome : (call.perform stamp ledger).1 with
  | error e =>
    rw [perform_error outcome]
    simp [Except.isOk, Except.toBool]
  | ok answer =>
    cases call with
    | createRequest new =>
      rw [createRequest_ok outcome]
      rfl
    | createInstances id news =>
      rw [createInstances_ok outcome]
      rfl
    | createRequestWithInstances new news =>
      rw [createRequestWithInstances_ok outcome]
      rfl
    | getRequest | listInstances | listRequests | listAllInstances => rfl

/-- A call leaves all rows where they are. -/
theorem Call.Change.prefixes {stamp : Stamp} {ledger after : Ledger} {call : Call}
    (change : Change stamp ledger call after) :
    ledger.requests <+: after.requests ∧ ledger.instances <+: after.instances := by
  cases change with
  | none => exact ⟨List.prefix_refl _, List.prefix_refl _⟩
  | request | instances | both => exact ⟨List.prefix_append _ _, List.prefix_append _ _⟩

/-- What happens to a store: a call is made, or the gates change and what fails. -/
inductive Event
  | called (limit : Duration) (call : Call)
  | disturbed (gates : Method → Gate) (faults : Faults)

namespace Store

/-- The store after an event. -/
def after (store : Store) : Event → Store
  | .called limit call => (store.answerWithin limit call).store
  | .disturbed gates faults => store.disturb gates faults

/-- The event is a write that is answered with success. -/
def succeeds (store : Store) : Event → Bool
  | .called limit call => call.isWrite && (store.answerWithin limit call).outcome.isOk
  | .disturbed _ _ => false

/-- The store after a history. -/
def afterAll (store : Store) (events : List Event) : Store :=
  events.foldl after store

/-- How many writes of a history are answered with success. -/
def successes (store : Store) : List Event → Nat
  | [] => 0
  | event :: events =>
    (if store.succeeds event then 1 else 0) + (store.after event).successes events

section

variable {stamps : Nat → Stamp} {store : Store}

theorem after_prefixes (memory : store.backend = .memory) (event : Event) :
    store.ledger.requests <+: (store.after event).ledger.requests ∧
      store.ledger.instances <+: (store.after event).ledger.instances := by
  cases event with
  | disturbed => exact ⟨List.prefix_refl _, List.prefix_refl _⟩
  | called limit call =>
    rw [after]
    obtain ⟨e, -, same⟩ | ⟨-, same⟩ := answerWithin_memory memory limit call
    · rw [same]
      exact ⟨List.prefix_refl _, List.prefix_refl _⟩
    · rw [same]
      exact (store.performed_change call).prefixes

theorem after_writes (memory : store.backend = .memory) (event : Event) :
    (store.after event).ledger.writes =
      store.ledger.writes + if store.succeeds event then 1 else 0 := by
  cases event with
  | disturbed => rfl
  | called limit call =>
    rw [after, succeeds]
    obtain ⟨e, failed, same⟩ | ⟨outcome, same⟩ := answerWithin_memory memory limit call
    · rw [same, failed]
      simp [Except.isOk, Except.toBool]
    · rw [same, outcome]
      exact call.perform_writes store.nextStamp store.ledger

theorem after_issued (memory : store.backend = .memory) (event : Event) :
    (store.after event).issued ≤ store.issued + 1 := by
  cases event with
  | disturbed => exact Nat.le_succ _
  | called limit call =>
    rw [after]
    obtain ⟨e, -, same⟩ | ⟨-, same⟩ := answerWithin_memory memory limit call
    · rw [same]
      exact Nat.le_succ _
    · rw [same]
      exact Nat.le_refl _

theorem reach_after (reach : StoreReach stamps store) (event : Event) :
    StoreReach stamps (store.after event) := by
  cases event with
  | called limit call => exact .called limit call reach
  | disturbed gates faults => exact .disturbed gates faults reach

theorem reach_afterAll (reach : StoreReach stamps store) (events : List Event) :
    StoreReach stamps (store.afterAll events) := by
  induction events generalizing store with
  | nil => exact reach
  | cons event events ih => exact ih (reach_after reach event)

theorem afterAll_writes (reach : StoreReach stamps store) (events : List Event) :
    (store.afterAll events).ledger.writes = store.ledger.writes + store.successes events := by
  induction events generalizing store with
  | nil => rfl
  | cons event events ih =>
    have step := after_writes reach.backend event
    have rest : ((store.after event).afterAll events).ledger.writes = _ :=
      ih (reach_after reach event)
    rw [afterAll, List.foldl_cons, ← afterAll, rest, step, successes, Nat.add_assoc]

theorem afterAll_issued (reach : StoreReach stamps store) (events : List Event) :
    (store.afterAll events).issued ≤ store.issued + events.length := by
  induction events generalizing store with
  | nil => exact Nat.le_refl _
  | cons event events ih =>
    have step := after_issued reach.backend event
    have rest : ((store.after event).afterAll events).issued ≤ _ := ih (reach_after reach event)
    rw [afterAll, List.foldl_cons, ← afterAll, List.length_cons]
    omega

end

/-- After every history of a new store: the machines of a request have names of their own; the
taken names are exactly those of the machines; every machine has its request; ids of requests are
distinct; the number of writes is that of the writes that were answered with success; and whatever
happens next, the rows stay where they are. -/
theorem afterAll_consistent {stamps : Nat → Stamp} (events : List Event)
    (distinct : DistinctIds stamps events.length) :
    let ledger := (afterAll { stamps } events).ledger
    let keys := ledger.instances.map fun row => (row.requestId, row.vmName)
    keys.Nodup ∧ (∀ key, key ∈ ledger.taken ↔ key ∈ keys) ∧
      (∀ row ∈ ledger.instances, row.requestId ∈ ledger.requests.map (·.id)) ∧
      (ledger.requests.map (·.id)).Nodup ∧
      ledger.writes = successes { stamps } events ∧
      ∀ event, let next := (afterAll { stamps } (events ++ [event])).ledger
        ledger.requests <+: next.requests ∧ ledger.instances <+: next.instances := by
  intro ledger keys
  have new : StoreReach stamps { stamps } := .start
  have reach := reach_afterAll new events
  have sound := reach.sound
  have issued := afterAll_issued new events
  have few : (afterAll { stamps } events).issued ≤ events.length := by simpa using issued
  refine ⟨sound.names, ?_, ?_, reach.ids_nodup (distinct.mono few), ?_, ?_⟩
  · intro key
    exact (sound.taken key).trans List.mem_map.symm
  · intro row member
    obtain ⟨request, there, parent⟩ := sound.parents row member
    exact List.mem_map.mpr ⟨request, there, parent⟩
  · exact (afterAll_writes new events).trans (Nat.zero_add _)
  · intro event
    rw [afterAll, List.foldl_append]
    exact after_prefixes reach.backend event

/-- A request, a machine of another one that is not there, a request that cannot be written, two
machines of the first request, and two more of which one has the name of a machine before it. -/
theorem afterAll_consistent_failing :
    let request : NewRequest := ⟨.deploy, .new, "", "", ""⟩
    let adding (id : Uuid) (names : List String) : Event :=
      .called ⟨0⟩ (.createInstances id (names.map (⟨·, .init⟩)))
    let events : List Event := [
      .called ⟨0⟩ (.createRequest request),
      adding ⟨1⟩ ["web_1"],
      .disturbed (fun _ => {}) { requestWrites := true },
      .called ⟨0⟩ (.createRequest request),
      adding ⟨0⟩ ["web_1", "web_2"],
      adding ⟨0⟩ ["web_3", "web_1"]]
    let ledger := (afterAll { stamps := Stamp.numbered } events).ledger
    let keys := ledger.instances.map fun row => (row.requestId, row.vmName)
    DistinctIds Stamp.numbered events.length ∧ ledger.requests.length = 1 ∧ ledger.writes = 2 ∧
      keys = [(⟨0⟩, "web_1"), (⟨0⟩, "web_2")] ∧
      (ledger.requests.map (·.id)).Nodup ∧ ∀ key, key ∈ ledger.taken ↔ key ∈ keys := by
  intro request adding events ledger keys
  have distinct : DistinctIds Stamp.numbered events.length := distinctIds_numbered (by decide)
  obtain ⟨-, taken, -, ids, -⟩ := afterAll_consistent events distinct
  let before : Store := afterAll { stamps := Stamp.numbered } (events.take 4)
  let between := before.after (adding ⟨0⟩ ["web_1", "web_2"])
  let again : Call := .createInstances ⟨0⟩ [⟨"web_3", .init⟩, ⟨"web_1", .init⟩]
  -- Whether a name is taken cannot be computed, so the laws of batches tell what is written.
  have written : between.ledger = before.ledger.extended [] _ _ := congrArg Prod.snd
    (Call.perform_createInstances before.nextStamp rfl
      ⟨by decide, fun _ _ => Std.HashSet.not_mem_empty⟩)
  have used : (⟨0⟩, "web_1") ∈ between.ledger.taken := by
    rw [written]
    exact Ledger.mem_taking_iff.mpr (.inr ⟨_, List.mem_cons_self, rfl⟩)
  have refused : ledger = between.ledger := by
    cases outcome : (between.answerWithin ⟨0⟩ again).outcome with
    | error e => exact answerWithin_error rfl outcome
    | ok rows =>
      obtain ⟨-, -, free⟩ := Call.createInstances_free (answerWithin_ok rfl outcome).1
      exact absurd used (free ⟨"web_1", .init⟩ (by decide))
  have whole : ledger = before.ledger.extended [] _ _ := refused.trans written
  exact ⟨distinct, congrArg (·.requests.length) whole, congrArg Ledger.writes whole,
    congrArg (·.instances.map fun row => (row.requestId, row.vmName)) whole, ids, taken⟩

end Store

end VmAdmission
