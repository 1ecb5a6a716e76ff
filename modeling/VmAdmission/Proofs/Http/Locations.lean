import VmAdmission.Proofs.Http.Paths
import VmAdmission.Proofs.Http.Responses
import VmAdmission.Proofs.LastingRequests
import VmAdmission.Proofs.Operations

namespace VmAdmission

open Relation (ReflTransGen)

theorem Settings.read_requestBasePath {env : Environment} {settings : Settings}
    (ok : read env = .ok settings) (unset : env "REQUEST_BASE_PATH" = none) :
    settings.requestBasePath = "/virtualization/v1beta1/virtual-machines-request/" := by
  obtain ⟨backend, -, ok⟩ := bind_ok ok
  dsimp only at ok
  split at ok
  · cases ok
  obtain ⟨validation, -, ok⟩ := bind_ok ok
  obtain ⟨admission, -, ok⟩ := bind_ok ok
  obtain ⟨address, -, ok⟩ := bind_ok ok
  cases ok
  exact (congrArg (Option.getD · _) unset : (env "REQUEST_BASE_PATH").getD _ = _)

/-- Nothing in an id has a meaning of its own in an address. -/
theorem Uuid.text_plain {id : Uuid} {c : Char} (reserved : c ∈ ['/', '?', '#', '%']) :
    c ∉ id.text.toList := by
  have digits : ∀ d < 16, Nat.digitChar d ∉ ['/', '?', '#', '%'] := by decide
  intro member
  rcases mem_text member with rfl | ⟨d, small, rfl⟩
  · exact absurd reserved (by decide)
  · exact digits d small reserved

namespace Http

namespace Route

/-- The location of a request leads to its route. -/
theorem ofTarget?_location (id : Uuid) :
    ofTarget? ("/virtualization/v1beta1/virtual-machines-request/" ++ id.text) =
      some (.request id.text) := by
  have path : ("/virtualization/v1beta1/virtual-machines-request/" ++ id.text).toList =
      through ["virtualization", "v1beta1", "virtual-machines-request", id.text] := by
    simp only [String.toList_append, through, List.flatMap_cons, List.flatMap_nil, List.append_nil]
    rfl
  have requests : IsSegment "virtual-machines-request" := by
    refine ⟨?_, ?_, ?_⟩ <;> decide
  have plain : IsSegment id.text := by
    refine ⟨?_, ?_, ?_⟩ <;> exact Uuid.text_plain (by decide)
  have named : id.text ≠ "" := by
    intro empty
    have parsed := Uuid.parse_text id
    rw [empty] at parsed
    cases parsed
  rw [ofTarget?_below path (List.forall_mem_cons.mpr ⟨requests,
    List.forall_mem_singleton.mpr plain⟩)]
  simp only [belowRoot, if_neg named]

end Route

/-- A request that is recorded is held as it was asked for. -/
theorem Request.Records.holds {request : Request} {stamps : Nat → Stamp} {store : Store}
    {row : RequestRow} {after : Ledger} (records : request.Records store.ledger after row)
    (reach : StoreReach stamps store) (fresh : store.ledger.Fresh row.id) :
    after.Holds ⟨row, request.machines.map (·.row row.id)⟩ where
  there := by simp [records.requests]
  machines := by
    rw [Ledger.machinesOf_append records.instances, reach.sound.machinesOf_fresh fresh,
      List.nil_append]

namespace App

variable {app : App} {request : Request} {stamps : Nat → Stamp} {store : Store}

theorem carryOut_reach (reach : StoreReach stamps store) (operation : Operation)
    (submission : Except Response (Submission Recorded)) :
    StoreReach stamps (app.carryOut operation submission store).store := by
  cases submission with
  | error response => exact reach
  | ok submission => exact submission.run_reach reach

/-- Requests leave the store as one that comes about by calls. -/
theorem handle_reach (reach : StoreReach stamps store) :
    StoreReach stamps (app.handle request store).store := by
  unfold handle
  cases Route.ofTarget? request.target with
  | none => exact reach
  | some route =>
    simp only [atRoute]
    split
    · split
      · cases route with
        | health => exact reach
        | machines => exact carryOut_reach reach _ _
        | machine rawId => exact carryOut_reach reach _ _
        | action operation rawId => exact carryOut_reach reach _ _
        | requests => exact VmAdmission.listRequests.run_reach reach
        | request rawId =>
          simp only [dispatch, find]
          split
          · exact reach
          · split
            · exact (findRequest _).run_reach reach
            · exact reach
      · exact reach
    · exact reach

/-- A request with a token for a location gets what is found there. -/
theorem handle_get {id : Uuid} {recorded : Recorded} (get : request.method = .get)
    (target : request.target =
      "/virtualization/v1beta1/virtual-machines-request/" ++ id.text)
    (token : (bearerToken? request).isSome = true)
    (found : ((findRequest id).run app.settings.pipeline.admission.storeTimeout store).result =
      .ok recorded) :
    (app.handle request store).response = { status := 200, content := .detail recorded } := by
  have plain : '%' ∉ id.text.toList := Uuid.text_plain (by decide)
  have served : Method.get ∈ (Route.request id.text).methods := List.mem_cons_self
  simp only [handle, target, Route.ofTarget?_location, atRoute, get, if_pos served, token, or_true,
    if_true, dispatch, find, parameter_plain plain, Uuid.parse_text, answered, found]
  rfl

/-- What somebody was answered with is what is found from then on, whatever else is asked for
afterwards, whatever of that fails, and whatever the store is made to do in between: the same
request with the same machines in the same order, as soon as the store lets reads through. This is so
for orders that are handled at the same time, for one that is handled by itself, and for a request
that is accepted over HTTP by an app with the default path: its location then gets the request and
its machines. -/
theorem recorded_found {stamps : Nat → Stamp} {store : Store} (reach : StoreReach stamps store) :
    (∀ (system later : System) (order : Order) (recorded : Recorded) (limit : Duration),
      ReflTransGen System.Step ⟨store, [], []⟩ system →
      ⟨order, .done (.ok recorded)⟩ ∈ system.callers →
      ReflTransGen System.Step system later → DistinctIds stamps later.store.issued →
      later.store.Readable limit →
      ((findRequest recorded.request.id).run limit later.store).result = .ok recorded) ∧
    (∀ (order : Order) (later : System) (recorded : Recorded) (limit : Duration),
      let attempt := order.submission.run order.config.admission.storeTimeout store
      attempt.result = .ok recorded →
      ReflTransGen System.Step ⟨attempt.store, [], []⟩ later →
      DistinctIds stamps later.store.issued → later.store.Readable limit →
      ((findRequest recorded.request.id).run limit later.store).result = .ok recorded) ∧
    ∀ (app : App) (env : Settings.Environment) (request : Request),
      Settings.read env = .ok app.settings → env "REQUEST_BASE_PATH" = none →
      DistinctIds stamps (store.issued + 1) →
      let served := app.handle request store
      served.response.status = 202 → ∃ recorded location,
        served.response.location = some location ∧
        request.Records store.ledger served.store.ledger recorded.request ∧
        recorded.instances = request.machines.map (·.row recorded.request.id) ∧
        ∀ (later : System) (reader : App) (get : Request),
          ReflTransGen System.Step ⟨served.store, [], []⟩ later →
          DistinctIds stamps later.store.issued →
          later.store.Readable reader.settings.pipeline.admission.storeTimeout →
          get.method = .get → get.target = location → (bearerToken? get).isSome = true →
          (reader.handle get later.store).response =
            { status := 200, content := .detail recorded } := by
  refine ⟨?_, ?_, ?_⟩
  · intro system later order recorded limit before answered after distinct readable
    have steps := before.trans after
    obtain ⟨tenants, kept⟩ := System.Step.all_tenants_kept reach steps distinct .none
    have holds := kept.holds (System.Step.all_answered_stay after answered)
    exact readable.find (System.Step.all_reach reach steps) distinct holds
  · intro order later recorded limit attempt ok after distinct readable
    have reached : StoreReach stamps attempt.store := order.submission.run_reach reach
    have issued := (System.Step.all_kept reached after).issued
    have holds := (Ledger.Holds.of_ok reach ok (distinct.mono issued)).lasting reached after distinct
    exact readable.find (System.Step.all_reach reached after) distinct holds
  · intro app env request read unset distinct served accepted
    have path := Settings.read_requestBasePath read unset
    have visible : Visible app.settings.requestBasePath := by
      rw [path]
      decide +kernel
    have ends : app.EndsWith request store served := handle_ends reach distinct visible
    obtain ⟨row, records⟩ := ends.status_iff.mp accepted
    obtain ⟨fresh, located⟩ := ends.located records
    refine ⟨⟨row, request.machines.map (·.row row.id)⟩, _, located, records, rfl, ?_⟩
    intro later reader get after stillDistinct readable method target token
    have reached : StoreReach stamps served.store := handle_reach reach
    have holds := (records.holds reach fresh).lasting reached after stillDistinct
    have found := readable.find (System.Step.all_reach reached after) stillDistinct holds
    rw [path] at target
    exact handle_get method target token found

/-- Two machines, an operation that is handled by itself, and one over HTTP; writes fail after each
of them. -/
theorem recorded_found_web :
    let services : Services := .uniform .none .crash
    let web : DeployOrder := .ofMachines "web" 2
    let deploy : Order := .deploy { admission := { atomic := true } } services web {}
    let delete : Order := .submit {} services .delete ⟨"vm-1", none⟩ {}
    let app := App.inMemory {} services
    let powerOn : Request :=
      ⟨.post, "/virtualization/v1beta1/virtual-machines/vm-1/power-on", [tokenHeader], []⟩
    let limit : Duration := .ofSeconds 10
    let store : Store := { stamps := Stamp.numbered }
    let failing (store : Store) := store.disturb (fun _ => {}) { requestWrites := true }
    let attempt := delete.submission.run delete.config.admission.storeTimeout store
    let served := app.handle powerOn store
    (∃ system recorded, ReflTransGen System.Step ⟨store, [], []⟩ system ∧
      ⟨deploy, .done (.ok recorded)⟩ ∈ system.callers ∧
      recorded.instances.map (·.vmName) = ["web_1", "web_2"] ∧
      ((findRequest recorded.request.id).run limit (failing system.store)).result = .ok recorded) ∧
    (∃ recorded, attempt.result = .ok recorded ∧
      ((findRequest recorded.request.id).run limit (failing attempt.store)).result =
        .ok recorded) ∧
    ∃ recorded location, served.response.location = some location ∧
      recorded.request.operation = .powerOn ∧
      (app.handle ⟨.get, location, [tokenHeader], []⟩ (failing served.store)).response =
        { status := 200, content := .detail recorded } := by
  intro services web deploy delete app powerOn limit store failing attempt served
  have reach : StoreReach Stamp.numbered store := .start
  have first : DistinctIds Stamp.numbered 1 := distinctIds_numbered (by decide)
  have readable {other : Store} (reach : StoreReach Stamp.numbered other) :
      (failing other).Readable limit :=
    have isOpen : (failing other).Open := ⟨reach.backend, rfl⟩
    isOpen.readable rfl limit
  obtain ⟨together, alone, http⟩ := recorded_found reach
  refine ⟨?_, ?_, ?_⟩
  · have initial : SystemReach Stamp.numbered { store } := .start
    obtain ⟨authors, steps⟩ := System.Step.all_of_deploy initial ⟨rfl, rfl⟩ first rfl services {}
      (rfl : deploy.config.validation.enabled = false) rfl
      (rfl : checkVmCount web.requested 1000 = .ok ())
    refine ⟨_, _, steps, List.mem_singleton_self _, by decide, ?_⟩
    exact together _ _ deploy _ limit steps (List.mem_singleton_self _)
      (.single (.disturbed (fun _ => {}) { requestWrites := true })) first
      (readable (System.Step.all_reach reach steps))
  · obtain ⟨recorded, ok⟩ : ∃ recorded, attempt.result = .ok recorded :=
      (PipelineConfig.submit_ok_iff reach.backend (by decide : Operation.delete ≠ .deploy)).mpr
        ⟨by decide, PipelineConfig.validateVm_disabled rfl, ⟨⟨by decide, rfl⟩, rfl⟩⟩
    have few : DistinctIds Stamp.numbered attempt.store.issued :=
      distinctIds_numbered (by decide +kernel)
    have reached : StoreReach Stamp.numbered attempt.store := delete.submission.run_reach reach
    refine ⟨recorded, ok, ?_⟩
    exact alone delete _ recorded limit ok
      (.single (.disturbed (fun _ => {}) { requestWrites := true })) few (readable reached)
  · have read : Settings.read (fun name => if name = "STORE_BACKEND" then some "memory" else none) =
        .ok app.settings := by decide +kernel
    obtain ⟨recorded, location, located, records, -, found⟩ :=
      http app _ powerOn read rfl first (by decide +kernel)
    have operations : served.store.ledger.requests.map (·.operation) = [.powerOn] := by
      decide +kernel
    rw [records.requests] at operations
    have shown (target : String) : (bearerToken? ⟨.get, target, [tokenHeader], []⟩).isSome = true := by
      have same : bearerToken? ⟨.get, target, [tokenHeader], []⟩ = bearerToken? powerOn := rfl
      rw [same]
      decide +kernel
    have few : DistinctIds Stamp.numbered served.store.issued :=
      distinctIds_numbered (by decide +kernel)
    refine ⟨recorded, location, located, List.head_eq_of_cons_eq operations, ?_⟩
    exact found _ app _ (.single (.disturbed (fun _ => {}) { requestWrites := true })) few
      (readable (handle_reach reach)) rfl rfl (shown location)

end App

end Http

end VmAdmission
