import VmAdmission.Ledger.Call

namespace VmAdmission

@[simp] theorem NewRequest.row_id (new : NewRequest) (stamp : Stamp) :
    (new.row stamp).id = stamp.id := rfl

namespace Ledger

/-- The ledger after a write that added these rows. -/
def extended (ledger : Ledger) (requests : List RequestRow) (instances : List InstanceRow)
    (taken : Std.HashSet (Uuid × String)) : Ledger :=
  { ledger with
    requests := ledger.requests ++ requests
    instances := ledger.instances ++ instances
    taken
    writes := ledger.writes + 1 }

@[simp] theorem extended_requests (ledger : Ledger) (requests : List RequestRow)
    (instances : List InstanceRow) (taken : Std.HashSet (Uuid × String)) :
    (ledger.extended requests instances taken).requests = ledger.requests ++ requests := rfl

@[simp] theorem extended_instances (ledger : Ledger) (requests : List RequestRow)
    (instances : List InstanceRow) (taken : Std.HashSet (Uuid × String)) :
    (ledger.extended requests instances taken).instances = ledger.instances ++ instances := rfl

@[simp] theorem extended_taken (ledger : Ledger) (requests : List RequestRow)
    (instances : List InstanceRow) (taken : Std.HashSet (Uuid × String)) :
    (ledger.extended requests instances taken).taken = taken := rfl

@[simp] theorem extended_faults (ledger : Ledger) (requests : List RequestRow)
    (instances : List InstanceRow) (taken : Std.HashSet (Uuid × String)) :
    (ledger.extended requests instances taken).faults = ledger.faults := rfl

/-- The names of new machines are free: none is taken and none is there twice. -/
def Free (taken : Std.HashSet (Uuid × String)) (id : Uuid) (news : List NewInstance) : Prop :=
  (news.map (·.vmName)).Nodup ∧ ∀ new ∈ news, (id, new.vmName) ∉ taken

/-- The taken names with those of new machines. -/
def taking (taken : Std.HashSet (Uuid × String)) (id : Uuid) (news : List NewInstance) :
    Std.HashSet (Uuid × String) :=
  news.foldl (fun taken new => taken.insert (id, new.vmName)) taken

theorem mem_taking_iff {taken : Std.HashSet (Uuid × String)} {id : Uuid}
    {news : List NewInstance} {key : Uuid × String} :
    key ∈ taking taken id news ↔ key ∈ taken ∨ ∃ new ∈ news, (id, new.vmName) = key := by
  induction news generalizing taken with
  | nil => simp [taking]
  | cons new news ih =>
    have first : taking taken id (new :: news) =
        taking (taken.insert (id, new.vmName)) id news := rfl
    rw [first, ih, Std.HashSet.mem_insert]
    simp only [beq_iff_eq, List.mem_cons, exists_eq_or_imp, or_left_comm, or_assoc]

/-- The names of the rows of new machines are those of the machines. -/
theorem named_rows_iff {id : Uuid} {news : List NewInstance} {key : Uuid × String} :
    (∃ row ∈ news.map (·.row id), (row.requestId, row.vmName) = key) ↔
      ∃ new ∈ news, (id, new.vmName) = key := by
  constructor
  · rintro ⟨row, member, same⟩
    obtain ⟨new, inside, rfl⟩ := List.mem_map.mp member
    exact ⟨new, inside, same⟩
  · rintro ⟨new, inside, same⟩
    exact ⟨new.row id, List.mem_map_of_mem inside, same⟩

theorem free_cons_iff {taken : Std.HashSet (Uuid × String)} {id : Uuid} {new : NewInstance}
    {news : List NewInstance} :
    Free taken id (new :: news) ↔
      (id, new.vmName) ∉ taken ∧ Free (taken.insert (id, new.vmName)) id news := by
  simp only [Free, List.map_cons, List.nodup_cons, List.mem_map, not_exists, not_and,
    List.mem_cons, forall_eq_or_imp, Std.HashSet.mem_insert, beq_iff_eq, Prod.mk.injEq, true_and,
    not_or]
  constructor
  · rintro ⟨⟨other, distinct⟩, unused, free⟩
    exact ⟨unused, distinct, fun m member => ⟨fun same => other m member same.symm, free m member⟩⟩
  · rintro ⟨unused, distinct, free⟩
    exact ⟨⟨fun m member same => (free m member).1 same.symm, distinct⟩, unused,
      fun m member => (free m member).2⟩

/-- Free names are taken, and no others. -/
theorem takeNames_ok_iff {taken after : Std.HashSet (Uuid × String)} {id : Uuid}
    {news : List NewInstance} :
    takeNames id news taken = .ok after ↔ Free taken id news ∧ after = taking taken id news := by
  induction news generalizing taken with
  | nil => simp [takeNames, Free, taking, eq_comm]
  | cons new news ih =>
    rw [free_cons_iff, takeNames, taking, List.foldl_cons]
    by_cases used : (id, new.vmName) ∈ taken
    · simp [used]
    · simp only [used, if_false, ih, not_false_eq_true, true_and, taking]

theorem hasRequest_iff {ledger : Ledger} {id : Uuid} :
    ledger.hasRequest id = true ↔ ∃ request ∈ ledger.requests, request.id = id := by
  simp [hasRequest]

end Ledger

namespace Call

variable {stamp : Stamp} {ledger : Ledger}

theorem perform_createRequest (new : NewRequest) :
    (createRequest new).perform stamp ledger =
      if ledger.faults.requestWrites then
        (.error (.unavailable (.injected .requestWrites)), ledger)
      else (.ok (new.row stamp), ledger.extended [new.row stamp] [] ledger.taken) := by
  rw [perform, Ledger.createRequest, Ledger.check]
  cases ledger.faults.requestWrites
  · simp [written, Ledger.extended, bind, Except.bind, pure, Except.pure]
  · rfl

/-- The machines of a request are recorded whenever their names are free. -/
theorem perform_createInstances (stamp : Stamp) {id : Uuid} {news : List NewInstance}
    (parent : ledger.hasRequest id = true) (free : Ledger.Free ledger.taken id news) :
    (createInstances id news).perform stamp ledger =
      if ledger.faults.instanceWrites then
        (.error (.unavailable (.injected .instanceWrites)), ledger)
      else (.ok (news.map (·.row id)),
        ledger.extended [] (news.map (·.row id)) (Ledger.taking ledger.taken id news)) := by
  have names := Ledger.takeNames_ok_iff.mpr ⟨free, rfl⟩
  rw [perform, Ledger.createInstances, Ledger.check]
  cases ledger.faults.instanceWrites
  · simp [written, Ledger.extended, bind, Except.bind, pure, Except.pure, parent, names]
  · rfl

theorem perform_createRequestWithInstances (new : NewRequest) {news : List NewInstance}
    (free : Ledger.Free ledger.taken stamp.id news) :
    (createRequestWithInstances new news).perform stamp ledger =
      if ledger.faults.requestWrites then
        (.error (.unavailable (.injected .requestWrites)), ledger)
      else if !news.isEmpty && ledger.faults.instanceWrites then
        (.error (.unavailable (.injected .instanceWrites)), ledger)
      else (.ok (new.row stamp, news.map (·.row stamp.id)),
        ledger.extended [new.row stamp] (news.map (·.row stamp.id))
          (Ledger.taking ledger.taken stamp.id news)) := by
  have names := Ledger.takeNames_ok_iff.mpr ⟨free, rfl⟩
  rw [perform, Ledger.createRequestWithInstances, Ledger.check, Ledger.check]
  cases ledger.faults.requestWrites
  · cases !news.isEmpty && ledger.faults.instanceWrites
    · simp [written, Ledger.extended, bind, Except.bind, pure, Except.pure, names]
    · rfl
  · rfl

/-- What calls do to the ledger. -/
inductive Change (stamp : Stamp) (ledger : Ledger) : Call → Ledger → Prop
  | none (call : Call) : Change stamp ledger call ledger
  | request (new : NewRequest) :
      Change stamp ledger (createRequest new)
        (ledger.extended [new.row stamp] [] ledger.taken)
  | instances {id : Uuid} {news : List NewInstance} (parent : ledger.hasRequest id = true)
      (free : Ledger.Free ledger.taken id news) :
      Change stamp ledger (createInstances id news)
        (ledger.extended [] (news.map (·.row id)) (Ledger.taking ledger.taken id news))
  | both (new : NewRequest) {news : List NewInstance}
      (free : Ledger.Free ledger.taken stamp.id news) :
      Change stamp ledger (createRequestWithInstances new news)
        (ledger.extended [new.row stamp] (news.map (·.row stamp.id))
          (Ledger.taking ledger.taken stamp.id news))

/-- What machines that are to be recorded come to: what fails is noticed first, then that their
request is not there, and then a name that cannot be had. -/
theorem createInstances_outcome (stamp : Stamp) (ledger : Ledger) (id : Uuid)
    (news : List NewInstance) :
    ((createInstances id news).perform stamp ledger).1 =
      if ledger.faults.instanceWrites then .error (.unavailable (.injected .instanceWrites))
      else if ledger.hasRequest id then
        (Ledger.takeNames id news ledger.taken).map fun _ => news.map (·.row id)
      else .error (.constraint (.noParent id)) := by
  rw [perform, Ledger.createInstances, Ledger.check]
  cases ledger.faults.instanceWrites with
  | true => rfl
  | false =>
    cases ledger.hasRequest id with
    | false => rfl
    | true => cases Ledger.takeNames id news ledger.taken <;> rfl

theorem createRequestWithInstances_outcome (stamp : Stamp) (ledger : Ledger) (new : NewRequest)
    (news : List NewInstance) :
    ((createRequestWithInstances new news).perform stamp ledger).1 =
      if ledger.faults.requestWrites then .error (.unavailable (.injected .requestWrites))
      else if !news.isEmpty && ledger.faults.instanceWrites then
        .error (.unavailable (.injected .instanceWrites))
      else (Ledger.takeNames stamp.id news ledger.taken).map fun _ =>
        (new.row stamp, news.map (·.row stamp.id)) := by
  rw [perform, Ledger.createRequestWithInstances, Ledger.check, Ledger.check]
  cases ledger.faults.requestWrites with
  | true => rfl
  | false =>
    cases !news.isEmpty && ledger.faults.instanceWrites with
    | true => rfl
    | false =>
      simp only [NewRequest.row_id]
      cases Ledger.takeNames stamp.id news ledger.taken <;> rfl

theorem createInstances_free {id : Uuid} {news : List NewInstance} {rows : List InstanceRow}
    (ok : ((createInstances id news).perform stamp ledger).1 = .ok rows) :
    ledger.hasRequest id = true ∧ Ledger.Free ledger.taken id news := by
  rw [createInstances_outcome] at ok
  split at ok
  · cases ok
  split at ok
  · rename_i parent
    cases names : Ledger.takeNames id news ledger.taken with
    | error e =>
      rw [names] at ok
      cases ok
    | ok taken => exact ⟨parent, (Ledger.takeNames_ok_iff.mp names).1⟩
  · cases ok

theorem createRequestWithInstances_free {new : NewRequest} {news : List NewInstance}
    {answer : RequestRow × List InstanceRow}
    (ok : ((createRequestWithInstances new news).perform stamp ledger).1 = .ok answer) :
    Ledger.Free ledger.taken stamp.id news := by
  rw [createRequestWithInstances_outcome] at ok
  split at ok
  · cases ok
  split at ok
  · cases ok
  cases names : Ledger.takeNames stamp.id news ledger.taken with
  | error e =>
    rw [names] at ok
    cases ok
  | ok taken => exact (Ledger.takeNames_ok_iff.mp names).1

theorem createRequest_ok {new : NewRequest} {row : RequestRow}
    (ok : ((createRequest new).perform stamp ledger).1 = .ok row) :
    (createRequest new).perform stamp ledger =
      (.ok (new.row stamp), ledger.extended [new.row stamp] [] ledger.taken) := by
  rw [perform_createRequest] at ok ⊢
  split at ok
  · cases ok
  · exact if_neg ‹_›

theorem createInstances_ok {id : Uuid} {news : List NewInstance} {rows : List InstanceRow}
    (ok : ((createInstances id news).perform stamp ledger).1 = .ok rows) :
    (createInstances id news).perform stamp ledger =
      (.ok (news.map (·.row id)),
        ledger.extended [] (news.map (·.row id)) (Ledger.taking ledger.taken id news)) := by
  obtain ⟨parent, free⟩ := createInstances_free ok
  rw [perform_createInstances stamp parent free] at ok ⊢
  split at ok
  · cases ok
  · exact if_neg ‹_›

theorem createRequestWithInstances_ok {new : NewRequest} {news : List NewInstance}
    {answer : RequestRow × List InstanceRow}
    (ok : ((createRequestWithInstances new news).perform stamp ledger).1 = .ok answer) :
    (createRequestWithInstances new news).perform stamp ledger =
      (.ok (new.row stamp, news.map (·.row stamp.id)),
        ledger.extended [new.row stamp] (news.map (·.row stamp.id))
          (Ledger.taking ledger.taken stamp.id news)) := by
  have free := createRequestWithInstances_free ok
  rw [perform_createRequestWithInstances new free] at ok ⊢
  split at ok
  · cases ok
  rw [if_neg ‹_›]
  split at ok
  · cases ok
  · exact if_neg ‹_›

/-- A call that fails leaves the ledger as it was. -/
theorem perform_error {call : Call} {e : StoreError}
    (failed : (call.perform stamp ledger).1 = .error e) :
    (call.perform stamp ledger).2 = ledger := by
  have whole {α : Type} {result : Except StoreError (α × Ledger)}
      (failed : (written ledger result).1 = .error e) : (written ledger result).2 = ledger := by
    cases result with
    | error => rfl
    | ok => cases failed
  cases call with
  | createRequest | createInstances | createRequestWithInstances => exact whole failed
  | getRequest | listInstances | listRequests | listAllInstances => rfl

/-- Every call does to the ledger what its kind does, or nothing. -/
theorem perform_change (call : Call) : Change stamp ledger call (call.perform stamp ledger).2 := by
  cases outcome : (call.perform stamp ledger).1 with
  | error e =>
    rw [perform_error outcome]
    exact .none call
  | ok answer =>
    cases call with
    | createRequest new =>
      rw [createRequest_ok outcome]
      exact .request new
    | createInstances id news =>
      obtain ⟨parent, free⟩ := createInstances_free outcome
      rw [createInstances_ok outcome]
      exact .instances parent free
    | createRequestWithInstances new news =>
      rw [createRequestWithInstances_ok outcome]
      exact .both new (createRequestWithInstances_free outcome)
    | getRequest | listInstances | listRequests | listAllInstances => exact .none _

end Call

end VmAdmission
