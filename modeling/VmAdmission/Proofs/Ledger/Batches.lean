import VmAdmission.Proofs.Ledger.Reach

namespace VmAdmission

namespace Ledger

/-- The name is the first of the list that cannot be had: it is taken, or that of a machine before
it. -/
def Clashes (taken : Std.HashSet (Uuid × String)) (id : Uuid) (news : List NewInstance)
    (name : String) : Prop :=
  ∃ before new after, news = before ++ new :: after ∧ new.vmName = name ∧ Free taken id before ∧
    ((id, name) ∈ taken ∨ name ∈ before.map (·.vmName))

theorem free_nil (taken : Std.HashSet (Uuid × String)) (id : Uuid) : Free taken id [] :=
  ⟨List.nodup_nil, fun _ member => nomatch member⟩

theorem clashes_cons_of_taken {taken : Std.HashSet (Uuid × String)} {id : Uuid} {new : NewInstance}
    {news : List NewInstance} {name : String} (used : (id, new.vmName) ∈ taken) :
    Clashes taken id (new :: news) name ↔ name = new.vmName := by
  constructor
  · rintro ⟨before, other, after, split, rfl, free, -⟩
    cases before with
    | nil =>
      cases split
      rfl
    | cons first before =>
      cases split
      exact absurd used (free.2 new List.mem_cons_self)
  · rintro rfl
    exact ⟨[], new, news, rfl, rfl, free_nil taken id, .inl used⟩

/-- After a name that can be had, the names that follow must not be this one either. -/
theorem clashes_cons_of_free {taken : Std.HashSet (Uuid × String)} {id : Uuid} {new : NewInstance}
    {news : List NewInstance} {name : String} (unused : (id, new.vmName) ∉ taken) :
    Clashes taken id (new :: news) name ↔
      Clashes (taken.insert (id, new.vmName)) id news name := by
  constructor
  · rintro ⟨before, other, after, split, rfl, free, clash⟩
    cases before with
    | nil =>
      cases split
      exact absurd (clash.resolve_right List.not_mem_nil) unused
    | cons first before =>
      cases split
      refine ⟨before, other, after, rfl, rfl, (free_cons_iff.mp free).2, ?_⟩
      rw [Std.HashSet.mem_insert]
      rcases clash with used | earlier
      · exact .inl (.inr used)
      · rcases List.mem_cons.mp earlier with same | earlier
        · exact .inl (.inl (beq_iff_eq.mpr (by rw [same])))
        · exact .inr earlier
  · rintro ⟨before, other, after, rfl, rfl, free, clash⟩
    refine ⟨new :: before, other, after, rfl, rfl, free_cons_iff.mpr ⟨unused, free⟩, ?_⟩
    rcases clash with used | earlier
    · rcases Std.HashSet.mem_insert.mp used with same | used
      · have name : new.vmName = other.vmName := (Prod.ext_iff.mp (eq_of_beq same)).2
        exact .inr (name ▸ List.mem_cons_self)
      · exact .inl used
    · exact .inr (List.mem_cons_of_mem _ earlier)

/-- Names are refused because of the first that cannot be had. -/
theorem takeNames_error_iff {taken : Std.HashSet (Uuid × String)} {id : Uuid}
    {news : List NewInstance} {e : StoreError} :
    takeNames id news taken = .error e ↔
      ∃ name, Clashes taken id news name ∧ e = .constraint (.duplicate id name) := by
  induction news generalizing taken with
  | nil =>
    constructor
    · exact nofun
    · rintro ⟨name, ⟨before, new, after, split, -⟩, -⟩
      exact absurd split.symm (by simp)
  | cons new news ih =>
    rw [takeNames]
    by_cases used : (id, new.vmName) ∈ taken
    · simp only [if_pos used, clashes_cons_of_taken used, exists_eq_left, Except.error.injEq,
        eq_comm]
    · simp only [if_neg used, clashes_cons_of_free used, ih]

/-- Why machines are not recorded for a request. -/
inductive RefusesMachines (ledger : Ledger) (id : Uuid) (news : List NewInstance) :
    StoreError → Prop
  | failing (failing : ledger.faults.instanceWrites = true) :
      RefusesMachines ledger id news (.unavailable (.injected .instanceWrites))
  | orphaned (working : ledger.faults.instanceWrites = false)
      (orphaned : ledger.hasRequest id = false) :
      RefusesMachines ledger id news (.constraint (.noParent id))
  | clashing (working : ledger.faults.instanceWrites = false) (parent : ledger.hasRequest id = true)
      {name : String} (clash : Clashes ledger.taken id news name) :
      RefusesMachines ledger id news (.constraint (.duplicate id name))

/-- Why a request is not recorded together with its machines. -/
inductive RefusesBoth (ledger : Ledger) (id : Uuid) (news : List NewInstance) : StoreError → Prop
  | failing (failing : ledger.faults.requestWrites = true) :
      RefusesBoth ledger id news (.unavailable (.injected .requestWrites))
  | failingMachines (working : ledger.faults.requestWrites = false) (some : news ≠ [])
      (failing : ledger.faults.instanceWrites = true) :
      RefusesBoth ledger id news (.unavailable (.injected .instanceWrites))
  | clashing (working : ledger.faults.requestWrites = false)
      (machines : ledger.faults.instanceWrites = false ∨ news = [])
      {name : String} (clash : Clashes ledger.taken id news name) :
      RefusesBoth ledger id news (.constraint (.duplicate id name))

/-- What a write that is made does to the ledger: it adds rows at the ends of the tables, with the
names of the machines, and counts as one. -/
structure Gains (before : Ledger) (added : List RequestRow) (machines : List InstanceRow)
    (after : Ledger) : Prop where
  requests : after.requests = before.requests ++ added
  instances : after.instances = before.instances ++ machines
  taken : ∀ key, key ∈ after.taken ↔
    key ∈ before.taken ∨ ∃ row ∈ machines, (row.requestId, row.vmName) = key
  writes : after.writes = before.writes + 1
  faults : after.faults = before.faults

theorem gains_extended (ledger : Ledger) (requests : List RequestRow) (id : Uuid)
    (news : List NewInstance) :
    ledger.Gains requests (news.map (·.row id))
      (ledger.extended requests (news.map (·.row id)) (taking ledger.taken id news)) where
  requests := rfl
  instances := rfl
  taken key := by
    rw [extended_taken, mem_taking_iff, named_rows_iff]
  writes := rfl
  faults := rfl

/-- In a ledger that agrees with itself, names can be had for a request if they are distinct and
none is that of a machine of the request. -/
theorem Sound.free_iff {ledger : Ledger} (sound : ledger.Sound) {id : Uuid}
    {news : List NewInstance} :
    Free ledger.taken id news ↔ (news.map (·.vmName)).Nodup ∧
      ∀ new ∈ news, ∀ row ∈ ledger.instances, row.requestId = id → row.vmName ≠ new.vmName := by
  simp only [Free, sound.taken, not_exists, not_and, Prod.mk.injEq]

/-- A list of machines is kept out by the failing of their part unless it is empty. -/
theorem lets_machines_iff {failing : Bool} {news : List NewInstance} :
    (!news.isEmpty && failing) = false ↔ failing = false ∨ news = [] := by
  cases failing <;> cases news <;> simp

end Ledger

namespace Call

open Ledger

variable {stamp : Stamp} {ledger : Ledger} {id : Uuid} {new : NewRequest}
  {news : List NewInstance} {e : StoreError}

theorem createInstances_error_iff :
    ((createInstances id news).perform stamp ledger).1 = .error e ↔
      ledger.RefusesMachines id news e := by
  rw [createInstances_outcome]
  constructor
  · intro failed
    split at failed
    · cases failed
      exact .failing ‹_›
    split at failed
    · cases names : takeNames id news ledger.taken with
      | ok taken =>
        rw [names] at failed
        cases failed
      | error other =>
        rw [names] at failed
        cases failed
        obtain ⟨name, clash, rfl⟩ := takeNames_error_iff.mp names
        exact .clashing (Bool.eq_false_iff.mpr ‹_›) ‹_› clash
    · cases failed
      exact .orphaned (Bool.eq_false_iff.mpr ‹_›) (Bool.eq_false_iff.mpr ‹_›)
  · rintro (failing | ⟨working, orphaned⟩ | ⟨working, parent, clash⟩)
    · exact if_pos failing
    · rw [working, orphaned]
      rfl
    · rw [working, parent, takeNames_error_iff.mpr ⟨_, clash, rfl⟩]
      rfl

theorem createInstances_ok_iff :
    (∃ rows, ((createInstances id news).perform stamp ledger).1 = .ok rows) ↔
      ledger.faults.instanceWrites = false ∧ ledger.hasRequest id = true ∧
        Free ledger.taken id news := by
  constructor
  · rintro ⟨rows, ok⟩
    obtain ⟨parent, free⟩ := createInstances_free ok
    rw [perform_createInstances stamp parent free] at ok
    split at ok
    · cases ok
    · exact ⟨Bool.eq_false_iff.mpr ‹_›, parent, free⟩
  · rintro ⟨working, parent, free⟩
    rw [perform_createInstances stamp parent free, working]
    exact ⟨_, rfl⟩

theorem createRequestWithInstances_error_iff :
    ((createRequestWithInstances new news).perform stamp ledger).1 = .error e ↔
      ledger.RefusesBoth stamp.id news e := by
  rw [createRequestWithInstances_outcome]
  constructor
  · intro failed
    split at failed
    · cases failed
      exact .failing ‹_›
    rename_i working
    have working := Bool.eq_false_iff.mpr working
    split at failed
    · rename_i failing
      cases failed
      simp only [Bool.and_eq_true, Bool.not_eq_true', List.isEmpty_eq_false_iff] at failing
      exact .failingMachines working failing.1 failing.2
    · rename_i machines
      have machines := lets_machines_iff.mp (Bool.eq_false_iff.mpr machines)
      cases names : takeNames stamp.id news ledger.taken with
      | ok taken =>
        rw [names] at failed
        cases failed
      | error other =>
        rw [names] at failed
        cases failed
        obtain ⟨name, clash, rfl⟩ := takeNames_error_iff.mp names
        exact .clashing working machines clash
  · rintro (failing | ⟨working, some, failing⟩ | ⟨working, machines, clash⟩)
    · exact if_pos failing
    · rw [working, failing, List.isEmpty_eq_false_iff.mpr some]
      rfl
    · rw [working, lets_machines_iff.mpr machines, takeNames_error_iff.mpr ⟨_, clash, rfl⟩]
      rfl

theorem createRequestWithInstances_ok_iff :
    (∃ answer, ((createRequestWithInstances new news).perform stamp ledger).1 = .ok answer) ↔
      ledger.faults.requestWrites = false ∧
        (ledger.faults.instanceWrites = false ∨ news = []) ∧ Free ledger.taken stamp.id news := by
  constructor
  · rintro ⟨answer, ok⟩
    have free := createRequestWithInstances_free ok
    rw [perform_createRequestWithInstances new free] at ok
    split at ok
    · cases ok
    rename_i working
    split at ok
    · cases ok
    exact ⟨Bool.eq_false_iff.mpr working, lets_machines_iff.mp (Bool.eq_false_iff.mpr ‹_›), free⟩
  · rintro ⟨working, machines, free⟩
    rw [perform_createRequestWithInstances new free, working, lets_machines_iff.mpr machines]
    exact ⟨_, rfl⟩

end Call

namespace Store

theorem admitCall_memory {store : Store} (memory : store.backend = .memory) (call : Call) :
    (store.admitCall call).1 = (call.perform store.nextStamp store.ledger).1 ∧
      (store.admitCall call).2.ledger = (call.perform store.nextStamp store.ledger).2 := by
  simp only [admitCall, memory]
  exact ⟨trivial, trivial⟩

/-- A batch of machines is recorded exactly if writes of machines do not fail, the request is there,
the names are distinct and none is that of a machine that is recorded for the request; together with
a new request it is recorded exactly if writes of requests do not fail, nor those of machines if
there are any, and the names are distinct. What is recorded is added at the ends of the tables as it
was given, and counts as one write. What is refused leaves the whole ledger as it was; it is refused
for a part that fails, then for a request that is not there, and then for the first name of the list
that cannot be had. -/
theorem batches_whole {stamps : Nat → Stamp} {store : Store} (reach : StoreReach stamps store)
    (distinct : DistinctIds stamps (store.issued + 1)) (id : Uuid) (new : NewRequest)
    (news : List NewInstance) :
    let ledger := store.ledger
    let machines := store.admitCall (.createInstances id news)
    let both := store.admitCall (.createRequestWithInstances new news)
    ((∃ rows, machines.1 = .ok rows) ↔
      ledger.faults.instanceWrites = false ∧ (∃ request ∈ ledger.requests, request.id = id) ∧
        (news.map (·.vmName)).Nodup ∧ ∀ new ∈ news, ∀ row ∈ ledger.instances,
          row.requestId = id → row.vmName ≠ new.vmName) ∧
    (∀ rows, machines.1 = .ok rows →
      rows = news.map (·.row id) ∧ ledger.Gains [] rows machines.2.ledger) ∧
    (∀ e, machines.1 = .error e →
      machines.2.ledger = ledger ∧ ledger.RefusesMachines id news e) ∧
    ((∃ answer, both.1 = .ok answer) ↔
      ledger.faults.requestWrites = false ∧ (ledger.faults.instanceWrites = false ∨ news = []) ∧
        (news.map (·.vmName)).Nodup) ∧
    (∀ request rows, both.1 = .ok (request, rows) →
      request = new.row store.nextStamp ∧ ledger.Fresh request.id ∧
        rows = news.map (·.row request.id) ∧ ledger.Gains [request] rows both.2.ledger) ∧
    ∀ e, both.1 = .error e →
      both.2.ledger = ledger ∧ ledger.RefusesBoth store.nextStamp.id news e := by
  intro ledger machines both
  have sound := reach.sound
  have fresh := reach.fresh distinct
  obtain ⟨machinesOutcome, machinesLedger⟩ :=
    admitCall_memory reach.backend (.createInstances id news)
  obtain ⟨bothOutcome, bothLedger⟩ :=
    admitCall_memory reach.backend (.createRequestWithInstances new news)
  simp only [machines, both, machinesOutcome, machinesLedger, bothOutcome, bothLedger]
  refine ⟨?_, fun rows ok => ?_, fun e failed => ?_, ?_, fun request rows ok => ?_,
    fun e failed => ?_⟩
  · rw [Call.createInstances_ok_iff, Ledger.hasRequest_iff, sound.free_iff]
  · have recorded := Call.createInstances_ok ok
    rw [recorded] at ok ⊢
    cases ok
    exact ⟨rfl, Ledger.gains_extended ..⟩
  · exact ⟨Call.perform_error failed, Call.createInstances_error_iff.mp failed⟩
  · rw [Call.createRequestWithInstances_ok_iff]
    exact and_congr_right fun _ => and_congr_right fun _ => ⟨fun free => free.1, sound.free fresh⟩
  · have recorded := Call.createRequestWithInstances_ok ok
    rw [recorded] at ok ⊢
    cases ok
    exact ⟨rfl, fresh, rfl, Ledger.gains_extended ..⟩
  · exact ⟨Call.perform_error failed, Call.createRequestWithInstances_error_iff.mp failed⟩

/-- A request with one machine, to which two more are added; but not while the second has the name
of the one that is there. -/
theorem batches_whole_twice :
    let request : NewRequest := ⟨.deploy, .new, "", "", ""⟩
    let store := (({ stamps := Stamp.numbered } : Store).answerWithin ⟨0⟩
      (.createRequestWithInstances request [⟨"a_1", .init⟩])).store
    let adding (names : List String) :=
      store.admitCall (.createInstances ⟨0⟩ (names.map (⟨·, .init⟩)))
    StoreReach Stamp.numbered store ∧ DistinctIds Stamp.numbered (store.issued + 1) ∧
      (∃ rows, (adding ["a_2", "a_3"]).1 = .ok rows) ∧
      (∃ e, (adding ["a_2", "a_1"]).1 = .error e) ∧
      (adding ["a_2", "a_1"]).2.ledger = store.ledger := by
  intro request store adding
  have reach : StoreReach Stamp.numbered store := .called _ _ .start
  have distinct : DistinctIds Stamp.numbered (store.issued + 1) := distinctIds_numbered (by decide)
  obtain ⟨-, -, -, recorded, grown, -⟩ :=
    batches_whole .start (distinctIds_numbered (by decide)) ⟨0⟩ request [⟨"a_1", .init⟩]
  obtain ⟨⟨row, rows⟩, ok⟩ := recorded.mpr ⟨rfl, .inl rfl, by decide⟩
  obtain ⟨rfl, -, rfl, gains⟩ := grown row rows ok
  have faults : store.ledger.faults = {} := gains.faults
  have requests : store.ledger.requests = [request.row (Stamp.numbered 0)] := gains.requests
  have instances : store.ledger.instances = [NewInstance.row ⟨"a_1", .init⟩ ⟨0⟩] := gains.instances
  have parent : ∃ request ∈ store.ledger.requests, request.id = ⟨0⟩ :=
    ⟨_, requests ▸ List.mem_singleton_self _, rfl⟩
  obtain ⟨others, -⟩ := batches_whole reach distinct ⟨0⟩ request [⟨"a_2", .init⟩, ⟨"a_3", .init⟩]
  obtain ⟨same, -, unchanged, -⟩ :=
    batches_whole reach distinct ⟨0⟩ request [⟨"a_2", .init⟩, ⟨"a_1", .init⟩]
  have refused : ∃ e, (adding ["a_2", "a_1"]).1 = .error e := by
    cases outcome : (adding ["a_2", "a_1"]).1 with
    | error e => exact ⟨e, rfl⟩
    | ok rows =>
      obtain ⟨-, -, -, free⟩ := same.mp ⟨rows, outcome⟩
      refine absurd rfl (free ⟨"a_1", .init⟩ (by decide) (NewInstance.row ⟨"a_1", .init⟩ ⟨0⟩) ?_ rfl)
      rw [instances]
      exact List.mem_singleton_self _
  obtain ⟨e, failed⟩ := refused
  refine ⟨reach, distinct, others.mpr ⟨by rw [faults], parent, by decide, ?_⟩, ⟨e, failed⟩,
    (unchanged e failed).1⟩
  rw [instances]
  decide

end Store

end VmAdmission
