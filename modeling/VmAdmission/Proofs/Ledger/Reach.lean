import VmAdmission.Ledger.Store
import VmAdmission.Proofs.Ledger.Writes

namespace VmAdmission

/-- The first stamps have ids of their own. -/
def DistinctIds (stamps : Nat → Stamp) (count : Nat) : Prop :=
  ∀ i < count, ∀ j < count, (stamps i).id = (stamps j).id → i = j

theorem DistinctIds.mono {stamps : Nat → Stamp} {count more : Nat}
    (distinct : DistinctIds stamps more) (fewer : count ≤ more) : DistinctIds stamps count :=
  fun i first j second =>
    distinct i (Nat.lt_of_lt_of_le first fewer) j (Nat.lt_of_lt_of_le second fewer)

/-- Stamps of one moment that have their numbers as ids. -/
def Stamp.numbered (n : Nat) : Stamp where
  id := ⟨BitVec.ofNat 128 n⟩
  createdAt := {
    date := ⟨2000, 1, 1, by decide, by decide, by decide⟩
    time := ⟨⟨0, by decide⟩, ⟨0, by decide⟩, ⟨0, by decide⟩, ⟨0, by decide⟩⟩ }

/-- There are distinct ids for as many requests as 128 bits can tell apart. -/
theorem distinctIds_numbered {count : Nat} (few : count ≤ 0x100000000000000000000000000000000) :
    DistinctIds Stamp.numbered count := by
  intro i first j second same
  have bits : BitVec.ofNat 128 i = BitVec.ofNat 128 j := congrArg Uuid.bits same
  have numbers := congrArg BitVec.toNat bits
  rw [BitVec.toNat_ofNat, BitVec.toNat_ofNat] at numbers
  omega

namespace Ledger

/-- A ledger that agrees with itself. -/
structure Sound (ledger : Ledger) : Prop where
  /-- Every machine belongs to a request that is there. -/
  parents : ∀ row ∈ ledger.instances, ∃ request ∈ ledger.requests, request.id = row.requestId
  /-- The taken names are those of the machines. -/
  taken : ∀ key, key ∈ ledger.taken ↔ ∃ row ∈ ledger.instances, (row.requestId, row.vmName) = key
  /-- The machines of a request have names of their own. -/
  names : (ledger.instances.map fun row => (row.requestId, row.vmName)).Nodup

/-- A ledger that agrees with itself goes on to do so when machines with free names are added to a
request, if this is there afterwards. -/
theorem Sound.extended {ledger : Ledger} (sound : ledger.Sound) {requests : List RequestRow}
    {id : Uuid} {news : List NewInstance} (free : Free ledger.taken id news)
    (parent : news ≠ [] → ∃ request ∈ ledger.requests ++ requests, request.id = id) :
    (ledger.extended requests (news.map (·.row id)) (taking ledger.taken id news)).Sound where
  parents row member := by
    rcases List.mem_append.mp member with old | added
    · obtain ⟨request, there, same⟩ := sound.parents row old
      exact ⟨request, List.mem_append_left _ there, same⟩
    · obtain ⟨new, inside, rfl⟩ := List.mem_map.mp added
      exact parent (List.ne_nil_of_mem inside)
  taken key := by
    rw [extended_taken, mem_taking_iff, sound.taken, extended_instances]
    simp only [List.mem_append, or_and_right, exists_or, named_rows_iff]
  names := by
    rw [extended_instances, List.map_append, List.map_map, List.nodup_append]
    refine ⟨sound.names, ?_, ?_⟩
    · refine List.pairwise_map.mpr ((List.pairwise_map.mp free.1).imp fun different same => ?_)
      exact different (Prod.ext_iff.mp same).2
    · rintro key old _ added rfl
      obtain ⟨row, there, rfl⟩ := List.mem_map.mp old
      obtain ⟨new, inside, same⟩ := List.mem_map.mp added
      refine free.2 new inside ((sound.taken _).mpr ⟨row, there, ?_⟩)
      exact same.symm

/-- No request of the ledger has the id. -/
def Fresh (ledger : Ledger) (id : Uuid) : Prop :=
  ∀ request ∈ ledger.requests, request.id ≠ id

theorem Sound.free {ledger : Ledger} (sound : ledger.Sound) {id : Uuid} (fresh : ledger.Fresh id)
    {news : List NewInstance} (names : (news.map (·.vmName)).Nodup) : Free ledger.taken id news := by
  refine ⟨names, fun new _ taken => ?_⟩
  obtain ⟨row, member, key⟩ := (sound.taken _).mp taken
  obtain ⟨request, there, same⟩ := sound.parents row member
  exact fresh request there (same.trans (Prod.ext_iff.mp key).1)

theorem Sound.change {stamp : Stamp} {ledger after : Ledger} {call : Call} (sound : ledger.Sound)
    (change : Call.Change stamp ledger call after) : after.Sound := by
  cases change with
  | none => exact sound
  | request new =>
    have free : Free ledger.taken stamp.id [] := ⟨.nil, fun _ member => nomatch member⟩
    exact sound.extended free fun some => absurd rfl some
  | instances parent free =>
    refine sound.extended free fun _ => ?_
    rw [List.append_nil]
    exact hasRequest_iff.mp parent
  | both new free =>
    exact sound.extended free fun _ => ⟨new.row stamp, by simp, rfl⟩

end Ledger

/-- A call adds one request or none, and one that it adds has the id of the stamp. -/
theorem Call.Change.requests {stamp : Stamp} {ledger after : Ledger} {call : Call}
    (change : Change stamp ledger call after) :
    after.requests = ledger.requests ∨
      ∃ row : RequestRow, row.id = stamp.id ∧ after.requests = ledger.requests ++ [row] := by
  cases change with
  | none => exact .inl rfl
  | request new => exact .inr ⟨new.row stamp, rfl, rfl⟩
  | instances => exact .inl (List.append_nil _)
  | both new => exact .inr ⟨new.row stamp, rfl, rfl⟩

theorem Call.Change.requests_subset {stamp : Stamp} {ledger after : Ledger} {call : Call}
    (change : Change stamp ledger call after) : ledger.requests ⊆ after.requests := by
  rcases change.requests with same | ⟨row, -, grown⟩
  · exact same ▸ List.Subset.refl _
  · exact grown ▸ List.subset_append_left _ _

namespace Store

/-- The stamp of the next request. -/
abbrev nextStamp (store : Store) : Stamp := store.stamps store.issued

/-- The store with other gates and other faults. -/
def disturb (store : Store) (gates : Method → Gate) (faults : Faults) : Store :=
  { store with gates, ledger := { store.ledger with faults } }

/-- The store after a call has come through to its ledger. -/
def performed (store : Store) (call : Call) : Store :=
  { store with
    ledger := (call.perform store.nextStamp store.ledger).2
    issued := store.issued + 1 }

theorem performed_change (store : Store) (call : Call) :
    Call.Change store.nextStamp store.ledger call (store.performed call).ledger :=
  Call.perform_change call

/-- A call fails before it comes to the ledger, or its outcome is that of the ledger. -/
theorem answerWithin_memory {store : Store} (memory : store.backend = .memory) (limit : Duration)
    (call : Call) :
    (∃ e, (store.answerWithin limit call).outcome = .error e ∧
      (store.answerWithin limit call).store = store) ∨
    ((store.answerWithin limit call).outcome =
        (call.perform store.nextStamp store.ledger).1 ∧
      (store.answerWithin limit call).store = store.performed call) := by
  unfold answerWithin
  cases (store.gates call.method).latency.within? limit with
  | none => exact .inl ⟨_, rfl, rfl⟩
  | some elapsed =>
    simp only [answer]
    cases (store.gates call.method).error with
    | some e => exact .inl ⟨e, rfl, rfl⟩
    | none =>
      simp only [admitCall, memory]
      exact .inr ⟨trivial, by rw [performed, memory]⟩

theorem requests_subset_answerWithin {store : Store} (memory : store.backend = .memory)
    (limit : Duration) (call : Call) :
    store.ledger.requests ⊆ (store.answerWithin limit call).store.ledger.requests := by
  obtain ⟨e, -, same⟩ | ⟨-, same⟩ := answerWithin_memory memory limit call
  · rw [same]
    exact List.Subset.refl _
  · rw [same]
    exact (store.performed_change call).requests_subset

theorem issued_le_answerWithin {store : Store} (memory : store.backend = .memory)
    (limit : Duration) (call : Call) :
    store.issued ≤ (store.answerWithin limit call).store.issued := by
  obtain ⟨e, -, same⟩ | ⟨-, same⟩ := answerWithin_memory memory limit call
  · exact Nat.le_of_eq (congrArg Store.issued same).symm
  · rw [same]
    exact Nat.le_succ _

theorem answerWithin_error {store : Store} (memory : store.backend = .memory) {limit : Duration}
    {call : Call} {e : StoreError} (failed : (store.answerWithin limit call).outcome = .error e) :
    (store.answerWithin limit call).store.ledger = store.ledger := by
  obtain ⟨_, -, same⟩ | ⟨outcome, same⟩ := answerWithin_memory memory limit call
  · rw [same]
  · rw [same]
    exact Call.perform_error (outcome.symm.trans failed)

/-- A call that succeeds is one that has come through to the ledger. -/
theorem answerWithin_ok {store : Store} (memory : store.backend = .memory) {limit : Duration}
    {call : Call} {answer : call.Answer}
    (ok : (store.answerWithin limit call).outcome = .ok answer) :
    (call.perform store.nextStamp store.ledger).1 = .ok answer ∧
      (store.answerWithin limit call).store = store.performed call := by
  obtain ⟨e, failed, -⟩ | ⟨outcome, same⟩ := answerWithin_memory memory limit call
  · cases failed.symm.trans ok
  · exact ⟨outcome.symm.trans ok, same⟩

/-- Nothing keeps the calls of a method from coming through within the limit: they are not held up
for longer and not failed. -/
structure LetsThrough (store : Store) (limit : Duration) (method : Method) : Prop where
  inTime : (store.gates method).latency.within? limit ≠ none
  unfailed : (store.gates method).error = none

theorem LetsThrough.answerWithin {store : Store} {limit : Duration} {call : Call}
    (through : store.LetsThrough limit call.method) (memory : store.backend = .memory) :
    (store.answerWithin limit call).outcome = (call.perform store.nextStamp store.ledger).1 ∧
      (store.answerWithin limit call).store = store.performed call := by
  obtain ⟨elapsed, inTime⟩ := Option.ne_none_iff_exists'.mp through.inTime
  simp only [Store.answerWithin, inTime, answer, through.unfailed, admitCall, memory]
  exact ⟨trivial, by rw [performed, memory]⟩

theorem letsThrough_of_ok {store : Store} {limit : Duration} {call : Call} {answer : call.Answer}
    (ok : (store.answerWithin limit call).outcome = .ok answer) :
    store.LetsThrough limit call.method := by
  unfold answerWithin at ok
  cases latency : (store.gates call.method).latency.within? limit with
  | none =>
    rw [latency] at ok
    cases ok
  | some elapsed =>
    cases error : (store.gates call.method).error with
    | none => exact ⟨by simp [latency], error⟩
    | some e =>
      rw [latency] at ok
      simp only [Store.answer, error] at ok
      cases ok

end Store

/-- The stores in memory that come from a new one by calls, each of which may be held up or made
to fail in any way. -/
inductive StoreReach (stamps : Nat → Stamp) : Store → Prop
  | start : StoreReach stamps { stamps }
  | disturbed {store} (gates : Method → Gate) (faults : Faults) :
      StoreReach stamps store → StoreReach stamps (store.disturb gates faults)
  | called {store} (limit : Duration) (call : Call) :
      StoreReach stamps store → StoreReach stamps (store.answerWithin limit call).store

namespace StoreReach

variable {stamps : Nat → Stamp} {store : Store}

theorem backend (reach : StoreReach stamps store) : store.backend = .memory := by
  induction reach with
  | start => rfl
  | disturbed _ _ _ ih => exact ih
  | called limit call _ ih =>
    obtain ⟨e, -, same⟩ | ⟨-, same⟩ := Store.answerWithin_memory ih limit call
    all_goals rw [same]; exact ih

theorem stamps_eq (reach : StoreReach stamps store) : store.stamps = stamps := by
  induction reach with
  | start => rfl
  | disturbed _ _ _ ih => exact ih
  | called limit call before ih =>
    obtain ⟨e, -, same⟩ | ⟨-, same⟩ := Store.answerWithin_memory before.backend limit call
    all_goals rw [same]; exact ih

theorem sound (reach : StoreReach stamps store) : store.ledger.Sound := by
  induction reach with
  | start =>
    exact {
      parents := fun _ member => absurd member List.not_mem_nil
      taken := fun key => by simp
      names := List.nodup_nil }
  | disturbed _ _ _ ih => exact ⟨ih.parents, ih.taken, ih.names⟩
  | @called store limit call before ih =>
    obtain ⟨e, -, same⟩ | ⟨-, same⟩ := Store.answerWithin_memory before.backend limit call
    · rw [same]
      exact ih
    · rw [same]
      exact ih.change (store.performed_change call)

/-- The ids in the ledger are those of stamps that are used up. -/
theorem id_issued (reach : StoreReach stamps store) {row : RequestRow}
    (member : row ∈ store.ledger.requests) : ∃ i < store.issued, (stamps i).id = row.id := by
  induction reach with
  | start => cases member
  | disturbed _ _ _ ih => exact ih member
  | @called store limit call before ih =>
    obtain ⟨e, -, same⟩ | ⟨-, same⟩ := Store.answerWithin_memory before.backend limit call
    · rw [same] at member ⊢
      exact ih member
    · rw [same] at member ⊢
      have old (member : row ∈ store.ledger.requests) :
          ∃ i < store.issued + 1, (stamps i).id = row.id := by
        obtain ⟨i, earlier, same⟩ := ih member
        exact ⟨i, Nat.lt_succ_of_lt earlier, same⟩
      rcases (store.performed_change call).requests with kept | ⟨added, id, grown⟩
      · exact old (kept ▸ member)
      · rcases List.mem_append.mp (grown ▸ member) with there | new
        · exact old there
        · cases List.mem_singleton.mp new
          exact ⟨store.issued, Nat.lt_succ_self _, by rw [id, Store.nextStamp, before.stamps_eq]⟩

/-- The next stamp is not in the ledger yet. -/
theorem fresh (reach : StoreReach stamps store) (distinct : DistinctIds stamps (store.issued + 1)) :
    store.ledger.Fresh store.nextStamp.id := by
  intro row member same
  rw [Store.nextStamp, reach.stamps_eq] at same
  obtain ⟨i, earlier, id⟩ := reach.id_issued member
  have again : i = store.issued :=
    distinct i (Nat.lt_succ_of_lt earlier) _ (Nat.lt_succ_self _) (id.trans same)
  omega

/-- What a call does to the ledger of a store that can come about: nothing, or what its kind does
with a stamp that is fresh. -/
theorem answered (reach : StoreReach stamps store) {limit : Duration} {call : Call}
    (distinct : DistinctIds stamps (store.answerWithin limit call).store.issued) :
    (store.answerWithin limit call).store.ledger = store.ledger ∨
      store.ledger.Fresh store.nextStamp.id ∧
        Call.Change store.nextStamp store.ledger call
          (store.answerWithin limit call).store.ledger := by
  obtain ⟨e, -, same⟩ | ⟨-, same⟩ := Store.answerWithin_memory reach.backend limit call
  · exact .inl (congrArg Store.ledger same)
  · rw [same] at distinct ⊢
    exact .inr ⟨reach.fresh distinct, store.performed_change call⟩

theorem ids_nodup (reach : StoreReach stamps store) (distinct : DistinctIds stamps store.issued) :
    (store.ledger.requests.map (·.id)).Nodup := by
  induction reach with
  | start => exact .nil
  | disturbed _ _ _ ih => exact ih distinct
  | @called store limit call before ih =>
    obtain ⟨e, -, same⟩ | ⟨-, same⟩ := Store.answerWithin_memory before.backend limit call
    · rw [same] at distinct ⊢
      exact ih distinct
    · rw [same] at distinct ⊢
      have nodup := ih (distinct.mono (Nat.le_succ _))
      rcases (store.performed_change call).requests with kept | ⟨added, id, grown⟩
      · exact kept ▸ nodup
      · have ids : (store.performed call).ledger.requests.map (·.id) =
            store.ledger.requests.map (·.id) ++ [added.id] := by
          rw [grown, List.map_append]
          rfl
        rw [ids, List.nodup_append]
        refine ⟨nodup, by simp, ?_⟩
        rintro old there _ new rfl
        obtain ⟨row, member, rfl⟩ := List.mem_map.mp there
        refine before.fresh distinct row member ?_
        rw [List.mem_singleton.mp new, id]

end StoreReach

end VmAdmission
