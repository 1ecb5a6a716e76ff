import VmAdmission.Proofs.Ledger.Reach
import VmAdmission.Proofs.Recording
import Mathlib.Data.List.Nodup

namespace VmAdmission

namespace Ledger

/-- The machines of the request with the id, in the order in which they were added. -/
def machinesOf (ledger : Ledger) (id : Uuid) : List InstanceRow :=
  ledger.instances.filter fun row => row.requestId == id

/-- The request has all machines that are planned from its order, and no others: they are named
and numbered in order. -/
def Complete (ledger : Ledger) (request : RequestRow) : Prop :=
  ∃ plan, Json.decodeString InstancePlan.decoder request.metadata = .ok plan ∧
    ledger.machinesOf request.id = (List.range plan.size).map fun i => {
      requestId := request.id
      vmName := plan.name ++ "_" ++ toString (i + 1)
      vmId := ""
      status := .init
      stateMessage := ""
      completedAt := none }

/-- Every machine belongs to a deployment, and every request has no machines or all of them. -/
structure Settled (ledger : Ledger) : Prop where
  deployments : ∀ row ∈ ledger.instances,
    ∃ request ∈ ledger.requests, request.id = row.requestId ∧ request.operation = .deploy
  machines : ∀ request ∈ ledger.requests,
    ledger.machinesOf request.id = [] ∨ ledger.Complete request

/-- The writes that the recording of requests makes: what it adds for a deployment is what is
planned from the order of that deployment. -/
inductive Proper (ledger : Ledger) : Call → Prop
  | request (new : NewRequest) : Proper ledger (.createRequest new)
  | machines {request : RequestRow} {limit : UInt32} {planned : List NewInstance}
      (there : request ∈ ledger.requests) (deploy : request.operation = .deploy)
      (plan : planInstances request.metadata limit = .ok planned) :
      Proper ledger (.createInstances request.id planned)
  | both {new : NewRequest} {limit : UInt32} {planned : List NewInstance}
      (deploy : new.operation = .deploy)
      (plan : planInstances new.metadata limit = .ok planned) :
      Proper ledger (.createRequestWithInstances new planned)

theorem complete_of_planned {ledger : Ledger} {request : RequestRow} {limit : UInt32}
    {planned : List NewInstance} (plan : planInstances request.metadata limit = .ok planned)
    (machines : ledger.machinesOf request.id = planned.map (·.row request.id)) :
    ledger.Complete request := by
  obtain ⟨asked, read, -, rfl⟩ := planInstances_ok_iff.mp plan
  exact ⟨asked, read, machines.trans (asked.instances_row _)⟩

theorem Complete.planned {ledger : Ledger} {request : RequestRow} {limit : UInt32}
    {planned : List NewInstance} (complete : ledger.Complete request)
    (plan : planInstances request.metadata limit = .ok planned) :
    ledger.machinesOf request.id = planned.map (·.row request.id) := by
  obtain ⟨asked, read, -, rfl⟩ := planInstances_ok_iff.mp plan
  obtain ⟨other, same, machines⟩ := complete
  cases read.symm.trans same
  exact machines.trans (asked.instances_row _).symm

theorem Complete.of_machinesOf_eq {ledger after : Ledger} {request : RequestRow}
    (complete : ledger.Complete request)
    (same : after.machinesOf request.id = ledger.machinesOf request.id) :
    after.Complete request := by
  obtain ⟨plan, read, machines⟩ := complete
  exact ⟨plan, read, same.trans machines⟩

section

variable {ledger : Ledger} {requests : List RequestRow} {news : List NewInstance}
  {taken : Std.HashSet (Uuid × String)} {id other : Uuid}

theorem machinesOf_append {after : Ledger}
    (added : after.instances = ledger.instances ++ news.map (·.row id)) :
    after.machinesOf id = ledger.machinesOf id ++ news.map (·.row id) := by
  have all : (news.map (·.row id)).filter (fun row => row.requestId == id) =
      news.map (·.row id) := by
    refine List.filter_eq_self.mpr fun row member => ?_
    obtain ⟨new, -, rfl⟩ := List.mem_map.mp member
    exact beq_self_eq_true id
  rw [machinesOf, added, List.filter_append, all]
  rfl

theorem machinesOf_extended_same :
    (ledger.extended requests (news.map (·.row id)) taken).machinesOf id =
      ledger.machinesOf id ++ news.map (·.row id) :=
  machinesOf_append rfl

theorem machinesOf_extended_other (different : id ≠ other) :
    (ledger.extended requests (news.map (·.row id)) taken).machinesOf other =
      ledger.machinesOf other := by
  have none : (news.map (·.row id)).filter (fun row => row.requestId == other) = [] := by
    refine List.filter_eq_nil_iff.mpr fun row member => ?_
    obtain ⟨new, -, rfl⟩ := List.mem_map.mp member
    exact fun same => different (eq_of_beq same)
  rw [machinesOf, extended_instances, List.filter_append, none, List.append_nil]
  rfl

theorem machinesOf_extended_nil :
    (ledger.extended requests [] taken).machinesOf id = ledger.machinesOf id := by
  rw [machinesOf, extended_instances, List.append_nil]
  rfl

theorem Sound.machinesOf_fresh (sound : ledger.Sound) (fresh : ledger.Fresh id) :
    ledger.machinesOf id = [] := by
  refine List.filter_eq_nil_iff.mpr fun row member same => ?_
  obtain ⟨request, there, parent⟩ := sound.parents row member
  exact fresh request there (parent.trans (eq_of_beq same))

/-- A request that has machines already gets no others with the same names. -/
theorem Sound.machinesOf_free (sound : ledger.Sound) (free : Free ledger.taken id news)
    (machines : ledger.machinesOf id = news.map (·.row id)) : news = [] := by
  cases news with
  | nil => rfl
  | cons new news =>
    have member : new.row id ∈ ledger.machinesOf id := by
      rw [machines]
      exact List.mem_cons_self
    have key := (sound.taken (id, new.vmName)).mpr ⟨new.row id, (List.mem_filter.mp member).1, rfl⟩
    exact absurd key (free.2 new List.mem_cons_self)

end

variable {ledger after : Ledger} {stamp : Stamp} {call : Call}

/-- What a proper write does to the machines of a request that was there: nothing, or it adds all
of them where there were none. -/
theorem Settled.kept (settled : ledger.Settled) (sound : ledger.Sound)
    (distinct : (ledger.requests.map (·.id)).Nodup) (fresh : ledger.Fresh stamp.id)
    (proper : ledger.Proper call) (change : Call.Change stamp ledger call after)
    {request : RequestRow} (there : request ∈ ledger.requests) :
    after.machinesOf request.id = ledger.machinesOf request.id ∨
      ledger.machinesOf request.id = [] ∧ after.Complete request := by
  cases change with
  | none => exact .inl rfl
  | request new => exact .inl machinesOf_extended_nil
  | both new free => exact .inl (machinesOf_extended_other (fresh request there).symm)
  | instances parent free =>
    cases proper with
    | @machines recorded limit planned member deploy plan =>
      by_cases same : recorded.id = request.id
      · cases List.inj_on_of_nodup_map distinct member there same
        rw [machinesOf_extended_same]
        rcases settled.machines request there with empty | complete
        · refine .inr ⟨empty, complete_of_planned plan ?_⟩
          rw [machinesOf_extended_same, empty, List.nil_append]
        · have none := sound.machinesOf_free free (complete.planned plan)
          exact .inl (by rw [none, List.map_nil, List.append_nil])
      · exact .inl (machinesOf_extended_other same)

/-- What a proper write adds to the requests: none, or one with the id of the stamp, which has no
machines or all of them, and all of them unless it was written alone. -/
theorem Proper.added (sound : ledger.Sound) (fresh : ledger.Fresh stamp.id)
    (proper : ledger.Proper call) (change : Call.Change stamp ledger call after) :
    after.requests = ledger.requests ∨
      ∃ request, request.id = stamp.id ∧ after.requests = ledger.requests ++ [request] ∧
        (after.machinesOf request.id = [] ∨ after.Complete request) ∧
        ((∀ new, call ≠ .createRequest new) → after.Complete request) := by
  cases change with
  | none => exact .inl rfl
  | instances => exact .inl (List.append_nil _)
  | request new =>
    refine .inr ⟨new.row stamp, rfl, rfl, .inl ?_, fun other => absurd rfl (other new)⟩
    exact machinesOf_extended_nil.trans (sound.machinesOf_fresh fresh)
  | @both new planned free =>
    cases proper with
    | both deploy plan =>
      have complete : (ledger.extended [new.row stamp] (planned.map (·.row stamp.id))
          (taking ledger.taken stamp.id planned)).Complete (new.row stamp) := by
        refine complete_of_planned plan (machinesOf_extended_same.trans ?_)
        rw [sound.machinesOf_fresh fresh, List.nil_append, NewRequest.row_id]
      exact .inr ⟨new.row stamp, rfl, rfl, .inr complete, fun _ => complete⟩

theorem Settled.complete_kept (settled : ledger.Settled) (sound : ledger.Sound)
    (distinct : (ledger.requests.map (·.id)).Nodup) (fresh : ledger.Fresh stamp.id)
    (proper : ledger.Proper call) (change : Call.Change stamp ledger call after)
    {request : RequestRow} (there : request ∈ ledger.requests)
    (complete : ledger.Complete request) : after.Complete request := by
  rcases settled.kept sound distinct fresh proper change there with same | ⟨-, complete⟩
  · exact complete.of_machinesOf_eq same
  · exact complete

theorem Settled.change (settled : ledger.Settled) (sound : ledger.Sound)
    (distinct : (ledger.requests.map (·.id)).Nodup) (fresh : ledger.Fresh stamp.id)
    (proper : ledger.Proper call) (change : Call.Change stamp ledger call after) :
    after.Settled where
  deployments := by
    have old (row : InstanceRow) (member : row ∈ ledger.instances) :
        ∃ request ∈ after.requests, request.id = row.requestId ∧ request.operation = .deploy := by
      obtain ⟨request, there, parent⟩ := settled.deployments row member
      exact ⟨request, change.requests_subset there, parent⟩
    intro row member
    cases change with
    | none => exact old row member
    | request new =>
      rw [extended_instances, List.append_nil] at member
      exact old row member
    | instances parent free =>
      cases proper with
      | @machines recorded limit planned there deploy plan =>
        rcases List.mem_append.mp member with there | added
        · exact old row there
        · obtain ⟨new, -, rfl⟩ := List.mem_map.mp added
          exact ⟨recorded, List.mem_append_left _ there, rfl, deploy⟩
    | both new free =>
      cases proper with
      | both deploy plan =>
        rcases List.mem_append.mp member with there | added
        · exact old row there
        · obtain ⟨machine, -, rfl⟩ := List.mem_map.mp added
          exact ⟨new.row stamp, by simp, rfl, deploy⟩
  machines request member := by
    have old (there : request ∈ ledger.requests) :
        after.machinesOf request.id = [] ∨ after.Complete request := by
      rcases settled.kept sound distinct fresh proper change there with same | ⟨-, complete⟩
      · rw [same]
        exact (settled.machines request there).imp_right (·.of_machinesOf_eq same)
      · exact .inr complete
    rcases proper.added sound fresh change with same | ⟨added, -, grown, machines, -⟩
    · exact old (same ▸ member)
    · rcases List.mem_append.mp (grown ▸ member) with there | new
      · exact old there
      · exact List.mem_singleton.mp new ▸ machines

end Ledger

end VmAdmission
