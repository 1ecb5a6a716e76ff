import VmAdmission.Proofs.LastingRequests

namespace VmAdmission

namespace Store

/-- The stores that reads lead to, as long as nothing is written. -/
inductive OnlyRead (store : Store) : Store → Prop
  | none : OnlyRead store store
  | read {later : Store} (limit : Duration) {call : Call} (reads : call.Reads)
      (earlier : OnlyRead store later) : OnlyRead store (later.answerWithin limit call).store

/-- All reads come through within the limit, and do not fail at the ledger. -/
structure AllReadable (store : Store) (limit : Duration) : Prop extends store.Readable limit where
  allRequests : store.LetsThrough limit .listRequests
  allMachines : store.LetsThrough limit .listAllInstances

theorem Open.allReadable {store : Store} (isOpen : store.Open)
    (faultless : store.ledger.faults.instanceReads = false) (limit : Duration) :
    store.AllReadable limit :=
  ⟨isOpen.readable faultless limit, isOpen.letsThrough limit _, isOpen.letsThrough limit _⟩

variable {store later : Store} {limit : Duration}

theorem answerWithin_gates (store : Store) (limit : Duration) (call : Call) :
    (store.answerWithin limit call).store.gates = store.gates := by
  unfold answerWithin
  cases (store.gates call.method).latency.within? limit with
  | none => rfl
  | some elapsed =>
    simp only [answer]
    cases (store.gates call.method).error with
    | some e => rfl
    | none =>
      simp only [admitCall]
      cases store.backend <;> rfl

/-- Reads use up stamps and change nothing else. -/
theorem OnlyRead.same (memory : store.backend = .memory) (read : store.OnlyRead later) :
    later.backend = .memory ∧ later.ledger = store.ledger ∧ later.gates = store.gates := by
  induction read with
  | none => exact ⟨memory, rfl, rfl⟩
  | @read later limit call reads earlier ih =>
    obtain ⟨still, ledger, gates⟩ := ih
    obtain ⟨after, same⟩ := answerWithin_reads still limit reads
    exact ⟨after, same.trans ledger, (later.answerWithin_gates limit call).trans gates⟩

theorem LetsThrough.of_gates {method : Method} (through : store.LetsThrough limit method)
    (same : later.gates = store.gates) : later.LetsThrough limit method :=
  ⟨by rw [same]; exact through.inTime, by rw [same]; exact through.unfailed⟩

theorem AllReadable.of_same (readable : store.AllReadable limit)
    (ledger : later.ledger = store.ledger) (gates : later.gates = store.gates) :
    later.AllReadable limit where
  requests := readable.requests.of_gates gates
  machines := readable.machines.of_gates gates
  faultless := by rw [ledger]; exact readable.faultless
  allRequests := readable.allRequests.of_gates gates
  allMachines := readable.allMachines.of_gates gates

theorem AllReadable.list (readable : store.AllReadable limit) (memory : store.backend = .memory) :
    (listRequests.run limit store).result =
      .ok ⟨store.ledger.requests, store.ledger.instances⟩ := by
  have through : store.LetsThrough limit Call.listRequests.method := readable.allRequests
  obtain ⟨answered, after⟩ := through.answerWithin memory
  have requests : (store.answerWithin limit .listRequests).outcome = .ok store.ledger.requests :=
    answered
  have still : (store.performed .listRequests).LetsThrough limit Call.listAllInstances.method :=
    readable.allMachines.of_gates rfl
  have machines : ((store.performed .listRequests).answerWithin limit .listAllInstances).outcome =
      .ok store.ledger.instances := by
    rw [(still.answerWithin memory).1]
    simp only [performed, Call.perform, Ledger.listAllInstances, Ledger.check, readable.faultless]
    rfl
  simp only [listRequests, Dialogue.run, Dialogue.Finished.delay, requests, after, machines,
    emptyIfMissing, Dialogue.given]

end Store

/-- The ids of the requests stand in the order in which the stamps were given out. -/
theorem StoreReach.ids_inOrder {stamps : Nat → Stamp} {store : Store}
    (reach : StoreReach stamps store) :
    (store.ledger.requests.map (·.id)).Sublist
      ((List.range store.issued).map fun i => (stamps i).id) := by
  induction reach with
  | start => exact List.Sublist.slnil
  | disturbed _ _ _ ih => exact ih
  | @called store limit call before ih =>
    obtain ⟨e, -, same⟩ | ⟨-, same⟩ := Store.answerWithin_memory before.backend limit call
    · rw [same]
      exact ih
    · have issued : (store.performed call).issued = store.issued + 1 := rfl
      rw [same, issued, List.range_succ, List.map_append]
      rcases (store.performed_change call).requests with kept | ⟨added, id, grown⟩
      · rw [kept]
        exact ih.trans (List.sublist_append_left _ _)
      · rw [grown, List.map_append]
        refine ih.append ?_
        rw [List.map_singleton, List.map_singleton, id, Store.nextStamp, before.stamps_eq]

namespace Listing

/-- The listing has all that is recorded: every request once, in the order in which the requests
were recorded, and machines of no others. -/
structure Whole (listing : Listing) (stamps : Nat → Stamp) (store : Store) : Prop where
  requests : listing.requests = store.ledger.requests
  instances : listing.instances = store.ledger.instances
  once : (listing.requests.map (·.id)).Nodup
  inOrder : (listing.requests.map (·.id)).Sublist
    ((List.range store.issued).map fun i => (stamps i).id)
  parents : ∀ row ∈ listing.instances, ∃ request ∈ listing.requests, request.id = row.requestId

/-- What the listing shows of one of its requests. -/
def about (listing : Listing) (request : RequestRow) : Recorded :=
  ⟨request, listing.instances.filter fun row => row.requestId == request.id⟩

end Listing

section

variable {stamps : Nat → Stamp} {store listed found : Store} {limit : Duration}

theorem StoreReach.whole (reach : StoreReach stamps store)
    (distinct : DistinctIds stamps store.issued) :
    Listing.Whole ⟨store.ledger.requests, store.ledger.instances⟩ stamps store :=
  ⟨rfl, rfl, reach.ids_nodup distinct, reach.ids_inOrder, reach.sound.parents⟩

theorem Store.OnlyRead.list (read : store.OnlyRead listed) (reach : StoreReach stamps store)
    (readable : store.AllReadable limit) :
    (listRequests.run limit listed).result =
      .ok ⟨store.ledger.requests, store.ledger.instances⟩ := by
  obtain ⟨memory, ledger, gates⟩ := read.same reach.backend
  rw [(readable.of_same ledger gates).list memory, ledger]

theorem Store.OnlyRead.find (read : store.OnlyRead found) (reach : StoreReach stamps store)
    (distinct : DistinctIds stamps store.issued) (readable : store.AllReadable limit)
    {request : RequestRow} (there : request ∈ store.ledger.requests) :
    ((findRequest request.id).run limit found).result =
      .ok (Listing.about ⟨store.ledger.requests, store.ledger.instances⟩ request) := by
  obtain ⟨memory, ledger, gates⟩ := read.same reach.backend
  have holds : found.ledger.Holds
      (Listing.about ⟨store.ledger.requests, store.ledger.instances⟩ request) := by
    rw [ledger]
    exact ⟨there, rfl⟩
  refine (readable.of_same ledger gates).find_held memory ?_ holds
  rw [ledger]
  exact reach.ids_nodup distinct

end

end VmAdmission
