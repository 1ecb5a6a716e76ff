import VmAdmission.Proofs.Readers

namespace VmAdmission

open Relation (ReflTransGen)

/-- The listing was begun at one moment and is there at a later one: each of its tables has all rows
that were there at the first, and none that are not there at the second. -/
structure Listing.Read (listing : Listing) (begun ended : System) : Prop where
  requestsBegun : begun.store.ledger.requests <+: listing.requests
  requestsEnded : listing.requests <+: ended.store.ledger.requests
  instancesBegun : begun.store.ledger.instances <+: listing.instances
  instancesEnded : listing.instances <+: ended.store.ledger.instances

section

variable {stamps : Nat → Stamp} {limit : Duration} {system last : System}

theorem listRequests_ensures (reach : SystemReach stamps system) :
    listRequests.Ensures stamps limit (fun last listing => listing.Read system last) system := by
  refine .of_both trivial trivial fun one other after oneBegun otherBegun candid otherCandid
    oneEnded otherEnded => ?_
  have reachOne := reach.later oneBegun
  have reachOther := reach.later otherBegun
  refine .of_given fun requests listed => .of_given fun machines found => ?_
  rintro listing same last later -
  cases same
  obtain rfl := Store.answerWithin_listRequests reachOne.store.backend candid listed
  obtain rfl := Store.answerWithin_listAllInstances reachOther.store.backend otherCandid found
  have oneLast := System.Step.all_before reachOne (oneEnded.trans later)
  have otherLast := System.Step.all_before reachOther (otherEnded.trans later)
  exact {
    requestsBegun := (System.Step.all_before reach oneBegun).requests
    requestsEnded := oneLast.requests
    instancesBegun := (System.Step.all_before reach otherBegun).instances
    instancesEnded := otherLast.instances }

/-- Whatever the orders do before, between and after the two reads of a listing: its tables are no
older than its beginning and no newer than its end, and a machine that it has belongs to a
deployment that it has too, or to one that was recorded after the listing was begun. -/
theorem listRequests_read (reach : SystemReach stamps system) {listing : Listing}
    (run : ReflTransGen (Observation.Step limit) ⟨system, listRequests⟩
      ⟨last, .done (.ok listing)⟩)
    (distinct : DistinctIds stamps last.store.issued) :
    listing.Read system last ∧
      ∀ row ∈ listing.instances, ∃ request ∈ last.store.ledger.requests,
        request.id = row.requestId ∧ request.operation = .deploy ∧
          (request ∈ listing.requests ∨ request ∉ system.store.ledger.requests) := by
  have read := (listRequests_ensures reach).run reach listRequests_reads run distinct
  refine ⟨read, fun row member => ?_⟩
  have reached := reach.later (Observation.system_steps listRequests_reads run).2
  obtain ⟨request, there, id, deploy⟩ :=
    (reached.settled distinct).ledger.deployments row (read.instancesEnded.subset member)
  refine ⟨request, there, id, deploy, ?_⟩
  by_cases old : request ∈ system.store.ledger.requests
  · exact .inl (read.requestsBegun.subset old)
  · exact .inr old

end

/-- A machine that is recorded with its request between the two reads is listed without it. -/
theorem listRequests_torn :
    let system : System := { store := { stamps := Stamp.numbered } }
    let row : InstanceRow :=
      { requestId := ⟨1⟩, vmName := "web_1", vmId := "", status := .init, stateMessage := "",
        completedAt := none }
    SystemReach Stamp.numbered system ∧ ∃ last,
      ReflTransGen (Observation.Step (.ofSeconds 10)) ⟨system, listRequests⟩
        ⟨last, .done (.ok ⟨[], [row]⟩)⟩ ∧
      DistinctIds Stamp.numbered last.store.issued := by
  intro system row
  let config : PipelineConfig := { admission := { atomic := true } }
  let services : Services := .uniform .none .crash
  let order : DeployOrder := .ofMachines "web" 1
  have distinct : DistinctIds Stamp.numbered 3 := distinctIds_numbered (by decide)
  let begun : System := { store := system.store.performed .listRequests }
  have read : system.Step begun := .read (.ofSeconds 10) (trivial : Call.listRequests.Reads)
  obtain ⟨authors, deployed⟩ := System.Step.all_of_deploy (.next .start read) ⟨rfl, rfl⟩
    (distinct.mono (by decide)) rfl services {} (rfl : config.validation.enabled = false) rfl
    (rfl : checkVmCount order.requested config.admission.maxVmsPerDeploy = .ok ())
  let new := Scope.newRequest {} .deploy .new order.text
  let recorded := new.recorded order.machines begun.store.nextStamp
  let after := begun.store.deployed recorded order.machines
  let last : System := ⟨after.performed .listAllInstances,
    [⟨.deploy config services order {}, .done (.ok recorded)⟩], authors⟩
  have isOpen : system.store.Open := ⟨rfl, rfl⟩
  have stillOpen : after.Open := ⟨rfl, rfl⟩
  have first : Observation.Step (.ofSeconds 10) ⟨system, listRequests⟩ ⟨begun, _⟩ :=
    .reader isOpen.candid (.first_of_open _ isOpen .listRequests .listAllInstances _)
  have run : ReflTransGen (Observation.Step (.ofSeconds 10)) ⟨system, listRequests⟩
      ⟨last, .done (.ok ⟨[], recorded.instances⟩)⟩ :=
    ((ReflTransGen.single first).trans (Observation.all_of_others _ deployed)).tail
      (.reader stillOpen.candid (.of_open _ stillOpen .listAllInstances _))
  have machines : recorded.instances = [row] := by decide
  exact ⟨.start, last, machines ▸ run, distinct⟩

/-- The request that is not listed was recorded after the listing was begun. -/
theorem listRequests_read_torn :
    let system : System := { store := { stamps := Stamp.numbered } }
    ∃ last listing, SystemReach Stamp.numbered system ∧
      ReflTransGen (Observation.Step (.ofSeconds 10)) ⟨system, listRequests⟩
        ⟨last, .done (.ok listing)⟩ ∧
      DistinctIds Stamp.numbered last.store.issued ∧ listing.Read system last ∧
      ∃ request ∈ last.store.ledger.requests, request.id = ⟨1⟩ ∧ request.operation = .deploy ∧
        (request ∈ listing.requests ∨ request ∉ system.store.ledger.requests) := by
  intro system
  obtain ⟨reach, last, run, distinct⟩ := listRequests_torn
  obtain ⟨read, parents⟩ := listRequests_read reach run distinct
  exact ⟨last, _, reach, run, distinct, read, parents _ (List.mem_singleton_self _)⟩

/-- So there are listings in which a machine is without its request. -/
theorem listRequests_unparented :
    ¬ ∀ (stamps : Nat → Stamp) (limit : Duration) (system last : System) (listing : Listing),
      SystemReach stamps system →
      ReflTransGen (Observation.Step limit) ⟨system, listRequests⟩ ⟨last, .done (.ok listing)⟩ →
      DistinctIds stamps last.store.issued →
      ∀ row ∈ listing.instances, ∃ request ∈ listing.requests, request.id = row.requestId := by
  intro closed
  obtain ⟨reach, last, run, distinct⟩ := listRequests_torn
  obtain ⟨request, listed, -⟩ := closed _ _ _ _ _ reach run distinct _ (List.mem_singleton_self _)
  cases listed

end VmAdmission
