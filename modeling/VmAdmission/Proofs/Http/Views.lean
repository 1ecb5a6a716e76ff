import VmAdmission.Proofs.Http.Locations
import VmAdmission.Proofs.Views

namespace VmAdmission

theorem Uuid.text_injective : Function.Injective text := by
  intro one other same
  have parsed := parse_text one
  rw [same, parse_text other] at parsed
  exact (Except.ok.inj parsed).symm

namespace Json

/-- The members of an object. -/
def members : Json → List (String × Json)
  | .object members => members
  | _ => []

/-- The text that an object has under a key. -/
def text? (key : String) (tree : Json) : Option String :=
  match tree.members.lookup key with
  | some (.string s) => some s
  | _ => none

/-- Words with underscores between them, written as one word: the first letter after each underscore
is a capital. -/
def camelChars : List Char → List Char
  | '_' :: c :: cs => c.toUpper :: camelChars cs
  | c :: cs => c :: camelChars cs
  | [] => []

/-- The members with their keys in camel case. -/
def camelMembers (tree : Json) : List (String × Json) :=
  tree.members.map fun (key, value) => (String.ofList (camelChars key.toList), value)

/-- A count is written in decimal digits, as long as it fits 64 bits. -/
theorem ofUInt64_text {n : Nat} (fits : n < UInt64.size) :
    (ofUInt64 n.toUInt64).text = toString n := by
  have number : (n.toUInt64.toNat : Int) = n := by
    rw [show n.toUInt64.toNat = n from Nat.mod_eq_of_lt fits]
  have natural : ¬ (n : Int) < 0 := by omega
  simp only [text, chars, ofUInt64, write, numberChars, number, intChars, if_neg natural,
    Int.natAbs_natCast, List.append_nil, List.reverse_reverse]
  rfl

end Json

/-- Callers get all members of a request, under their own keys. -/
theorem RequestRow.apiJson_members (row : RequestRow) :
    row.apiJson.members = row.json.camelMembers := by
  simp only [apiJson, json, Json.members, Json.camelMembers, List.map]
  rfl

/-- Callers get all members of a machine, under their own keys; its id comes before its name. -/
theorem InstanceRow.apiJson_members (row : InstanceRow) :
    row.apiJson.members.Perm row.json.camelMembers :=
  .cons _ (.swap _ _ _)

theorem RequestRow.apiJson_id (row : RequestRow) :
    row.apiJson.text? "requestId" = some row.id.text := rfl

theorem InstanceRow.apiJson_id (row : InstanceRow) :
    row.apiJson.text? "requestId" = some row.requestId.text := rfl

/-- Callers can tell by its id which machines belong to a request. -/
theorem Listing.about_apiJson (listing : Listing) (request : RequestRow) :
    (listing.about request).instances.map (·.apiJson) =
      (listing.instances.map (·.apiJson)).filter fun machine =>
        machine.text? "requestId" = some request.id.text := by
  rw [List.filter_map, about]
  refine congrArg _ (List.filter_congr fun row _ => ?_)
  simp only [Function.comp, InstanceRow.apiJson_id, Option.some.injEq, Uuid.text_injective.eq_iff]
  rfl

namespace Http.App

variable {app : App} {request : Request} {store : Store} {listing : Listing}

/-- A request with a token for the address of all requests gets the listing. -/
theorem handle_list (get : request.method = .get)
    (target : request.target = "/virtualization/v1beta1/virtual-machines-request")
    (token : (bearerToken? request).isSome = true)
    (listed : (listRequests.run app.settings.pipeline.admission.storeTimeout store).result =
      .ok listing) :
    (app.handle request store).response = { status := 200, content := .listing listing } := by
  have route : Route.ofTarget? "/virtualization/v1beta1/virtual-machines-request" =
      some .requests := by decide +kernel
  have served : Method.get ∈ Route.requests.methods := List.mem_cons_self
  simp only [handle, target, route, atRoute, get, if_pos served, token, or_true, if_true, dispatch,
    answered, listed]
  rfl

/-- The two ways to read agree in any store that calls lead to, as long as nobody writes between
them and all reads come through, whichever of them is made first. A listing has every recorded
request once, in the order in which they were recorded, and no machines of others; each of its
requests is found as it is listed, with just those listed machines that are its own, in the order of
the listing.
Over HTTP both answers show the same objects: a caller who follows the id of a listed request gets
that object again, with just those of the listed objects for machines that have its id. Each object
has all members of its row, and the counts are the lengths of the lists. -/
theorem views_agree {stamps : Nat → Stamp} {store : Store} (reach : StoreReach stamps store)
    (distinct : DistinctIds stamps store.issued) :
    (∀ (limit : Duration) (listed found : Store), store.OnlyRead listed → store.OnlyRead found →
      store.AllReadable limit →
      ∃ listing, (listRequests.run limit listed).result = .ok listing ∧
        listing.Whole stamps store ∧
        ∀ request ∈ listing.requests,
          ((findRequest request.id).run limit found).result = .ok (listing.about request)) ∧
    ∀ (app : App) (list : Request) (listed found : Store),
      store.OnlyRead listed → store.OnlyRead found →
      store.AllReadable app.settings.pipeline.admission.storeTimeout →
      list.method = .get → list.target = "/virtualization/v1beta1/virtual-machines-request" →
      (bearerToken? list).isSome = true →
      ∃ (requests machines : List Json) (requestCount machineCount : Json),
        (app.handle list listed).response.status = 200 ∧
        (app.handle list listed).response.body = (Json.object [
          ("vmRequestsListCount", requestCount),
          ("vmDeployListCount", machineCount),
          ("items", .object [
            ("vmRequestsList", .array requests), ("vmDeployList", .array machines)])]).text ∧
        (requests.length < UInt64.size → requestCount.text = toString requests.length) ∧
        (machines.length < UInt64.size → machineCount.text = toString machines.length) ∧
        List.Forall₂ (fun shown row => shown.members = row.json.camelMembers)
          requests store.ledger.requests ∧
        List.Forall₂ (fun shown row => shown.members.Perm row.json.camelMembers)
          machines store.ledger.instances ∧
        ∀ request ∈ requests, ∃ id, request.text? "requestId" = some id ∧
          ∀ get : Request, get.method = .get →
            get.target = "/virtualization/v1beta1/virtual-machines-request/" ++ id →
            (bearerToken? get).isSome = true →
            (app.handle get found).response.status = 200 ∧
            (app.handle get found).response.body = (Json.object [
              ("vmRequest", request),
              ("vmDeployList", .array (machines.filter fun machine =>
                machine.text? "requestId" = some id))]).text := by
  refine ⟨fun limit listed found listing finding readable => ?_,
    fun app list listed found listing finding readable method target token => ?_⟩
  · exact ⟨_, listing.list reach readable, reach.whole distinct,
      fun request there => finding.find reach distinct readable there⟩
  · have shown := handle_list method target token (listing.list reach readable)
    refine ⟨store.ledger.requests.map RequestRow.apiJson,
      store.ledger.instances.map InstanceRow.apiJson,
      .ofUInt64 store.ledger.requests.length.toUInt64,
      .ofUInt64 store.ledger.instances.length.toUInt64,
      congrArg Response.status shown, congrArg Response.body shown, fun fits => ?_, fun fits => ?_,
      ?_, ?_, ?_⟩
    · rw [List.length_map] at fits ⊢
      exact Json.ofUInt64_text fits
    · rw [List.length_map] at fits ⊢
      exact Json.ofUInt64_text fits
    · exact List.forall₂_map_left_iff.mpr (List.forall₂_same.mpr fun row _ => row.apiJson_members)
    · exact List.forall₂_map_left_iff.mpr (List.forall₂_same.mpr fun row _ => row.apiJson_members)
    · intro request member
      obtain ⟨row, there, rfl⟩ := List.mem_map.mp member
      refine ⟨row.id.text, row.apiJson_id, fun get method target token => ?_⟩
      have detail := handle_get method target token (finding.find reach distinct readable there)
      rw [← Listing.about_apiJson ⟨store.ledger.requests, store.ledger.instances⟩ row]
      exact ⟨congrArg Response.status detail, congrArg Response.body detail⟩

/-- Two machines that are deployed, and another one that is switched on; the listing is read first. -/
theorem views_agree_web :
    let limit : Duration := .ofSeconds 10
    let app := App.inMemory {} (.uniform .none .crash)
    let address := "/virtualization/v1beta1/virtual-machines-request"
    ∃ store, StoreReach Stamp.numbered store ∧ DistinctIds Stamp.numbered store.issued ∧
      store.AllReadable limit ∧
      store.ledger.instances.map (·.vmName) = ["web_1", "web_2"] ∧
      let listed := (store.answerWithin limit .listRequests).store
      (∃ listing, (listRequests.run limit store).result = .ok listing ∧
        listing.requests.map (·.operation) = [.deploy, .powerOn] ∧
        ∀ request ∈ listing.requests,
          ((findRequest request.id).run limit listed).result = .ok (listing.about request)) ∧
      ∃ requests machines : List Json, requests.length = 2 ∧ machines.length = 2 ∧
        (app.handle ⟨.get, address, [tokenHeader], []⟩ store).response.status = 200 ∧
        ∀ request ∈ requests, ∃ id,
          (app.handle ⟨.get, address ++ "/" ++ id, [tokenHeader], []⟩ listed).response.body =
            (Json.object [
              ("vmRequest", request),
              ("vmDeployList", .array (machines.filter fun machine =>
                machine.text? "requestId" = some id))]).text := by
  intro limit app address
  let config : PipelineConfig := { admission := { atomic := true } }
  let order : DeployOrder := .ofMachines "web" 2
  have distinct : DistinctIds Stamp.numbered 2 := distinctIds_numbered (by decide)
  let initial : Store := { stamps := Stamp.numbered }
  obtain ⟨authors, deployed⟩ := System.Step.all_of_deploy
    (.start : SystemReach Stamp.numbered { store := initial }) ⟨rfl, rfl⟩
    (distinct.mono (by decide)) rfl app.services {} (rfl : config.validation.enabled = false) rfl
    (rfl : checkVmCount order.requested config.admission.maxVmsPerDeploy = .ok ())
  let new := Scope.newRequest {} .deploy .new order.text
  let recorded := new.recorded order.machines initial.nextStamp
  let after := initial.deployed recorded order.machines
  let store := (after.answerWithin limit
    (.createRequest (Scope.newRequest {} .powerOn .new "vm-1"))).store
  let listed := (store.answerWithin limit .listRequests).store
  have reach : StoreReach Stamp.numbered store :=
    .called limit _ (System.Step.all_reach .start deployed)
  have isOpen : store.Open := ⟨rfl, rfl⟩
  have readable : store.AllReadable limit := isOpen.allReadable rfl limit
  have later : store.OnlyRead listed := .read limit (trivial : Call.listRequests.Reads) .none
  obtain ⟨direct, http⟩ := views_agree reach distinct
  refine ⟨store, reach, distinct, readable, by decide, ?_, ?_⟩
  · obtain ⟨listing, read, whole, found⟩ := direct limit store listed .none later readable
    refine ⟨listing, read, ?_, found⟩
    rw [whole.requests]
    decide
  · have shown (target : String) : (bearerToken? ⟨.get, target, [tokenHeader], []⟩).isSome = true :=
      bearerToken?_of_token rfl
    obtain ⟨requests, machines, _, _, ok, -, -, -, rows, instances, found⟩ :=
      http app ⟨.get, address, [tokenHeader], []⟩ store listed .none later readable rfl rfl (shown _)
    refine ⟨requests, machines, rows.length_eq, instances.length_eq, ok, fun request member => ?_⟩
    obtain ⟨id, -, get⟩ := found request member
    have target : address ++ "/" ++ id =
        "/virtualization/v1beta1/virtual-machines-request/" ++ id := rfl
    exact ⟨id, (get _ rfl target (shown _)).2⟩

end Http.App

end VmAdmission
