import VmAdmission.Proofs.Http.Scopes

namespace VmAdmission

/-- The most characters that the table of machines has room for in a name. -/
def maxNameLength : Nat := 255

/-- The row fits the columns of the table of requests. -/
structure RequestRow.Fits (row : RequestRow) : Prop where
  workspaceId : row.workspaceId.length ≤ 50
  datacenterId : row.datacenterId.length ≤ 50

/-- The row fits the columns of the table of machines. -/
structure InstanceRow.Fits (row : InstanceRow) : Prop where
  vmName : row.vmName.length ≤ maxNameLength
  vmId : row.vmId.length ≤ 50

theorem NewInstance.row_fits_iff (new : NewInstance) (id : Uuid) :
    (new.row id).Fits ↔ new.vmName.length ≤ maxNameLength :=
  ⟨fun fits => fits.vmName, fun short => ⟨short, Nat.zero_le _⟩⟩

/-- A smaller number has no more digits. -/
theorem length_toString_mono {m n : Nat} (le : m ≤ n) :
    (toString m).length ≤ (toString n).length := by
  have digits (k : Nat) : (toString k).length = (Nat.toDigits 10 k).length := by
    change (String.ofList _).length = _
    rw [String.length_ofList]
  have some : 0 < (Nat.toDigits 10 n).length := List.length_pos_of_ne_nil Nat.toDigits_ne_nil
  have below : n < 10 ^ (Nat.toDigits 10 n).length :=
    (Nat.length_toDigits_le_iff (by decide) some).mp (Nat.le_refl _)
  rw [digits, digits]
  exact (Nat.length_toDigits_le_iff (by decide) some).mpr (Nat.lt_of_le_of_lt le below)

namespace DeployOrder

/-- The length of the longest name of a machine of the order: that of the last one. -/
def longestName (order : DeployOrder) : Nat :=
  if order.size = 0 then 0
  else order.vmConfig.name.length + 1 + (toString order.size).length

/-- The names of all machines are short enough exactly if the longest of them is. -/
theorem names_le_iff (order : DeployOrder) (most : Nat) :
    (∀ new ∈ order.machines, new.vmName.length ≤ most) ↔ order.longestName ≤ most := by
  have length (i : Nat) : (order.vmConfig.name ++ "_" ++ toString (i + 1)).length =
      order.vmConfig.name.length + 1 + (toString (i + 1)).length := by
    rw [String.length_append, String.length_append]
    rfl
  simp only [machines, List.forall_mem_map, List.mem_range, length, longestName]
  by_cases none : order.size = 0
  · simp [none]
  rw [if_neg none]
  constructor
  · intro all
    have last := all (order.size - 1) (by omega)
    rwa [Nat.sub_add_cancel (by omega)] at last
  · intro longest i earlier
    have shorter := length_toString_mono (show i + 1 ≤ order.size by omega)
    omega

end DeployOrder

namespace Order

/-- The length of the longest name of a machine that the order asks for. -/
def longestName : Order → Nat
  | deploy _ _ order _ => order.longestName
  | submit .. => 0

theorem names_le_iff (order : Order) (most : Nat) :
    (∀ new ∈ order.machines, new.vmName.length ≤ most) ↔ order.longestName ≤ most := by
  cases order with
  | deploy config services order scope => exact order.names_le_iff most
  | submit => simp [machines, longestName]

/-- The machines that an order adds fit their table exactly if it asks for no name that is too
long. -/
theorem Adds.fit_iff {order : Order} {before after : Ledger} {recorded : Recorded}
    (adds : order.Adds before after recorded) :
    (∀ row ∈ recorded.instances, row.Fits) ↔ order.longestName ≤ maxNameLength := by
  rw [adds.machines, List.forall_mem_map, ← names_le_iff]
  simp only [NewInstance.row_fits_iff]

end Order

namespace Http

theorem Request.Gives.short {request : Request} {name id : String}
    (gives : request.Gives name id) : id.length ≤ maxScopeLength := by
  cases gives with
  | absent none => exact Nat.zero_le _
  | trimmed first readable trims short => exact short
  | unreadable first unreadable => exact Nat.zero_le _

namespace App

variable {app : App} {request : Request} {store : Store} {operation : Operation} {order : Order}
  {recorded : Recorded}

/-- The request that an order adds over HTTP fits its table. -/
theorem Carries.fits (carries : app.Carries request operation order)
    {before after : Ledger} (adds : order.Adds before after recorded) :
    recorded.request.Fits := by
  obtain ⟨workspace, datacenter⟩ := requestScope_ok carries.tenant
  refine ⟨?_, ?_⟩
  · rw [adds.workspaceId]
    exact workspace.short
  · rw [adds.datacenterId]
    exact datacenter.short

theorem Carries.unique {other : Operation} {same : Order}
    (carries : app.Carries request operation order) (again : app.Carries request other same) :
    operation = other ∧ order = same := by
  cases carries with
  | deploy found post token body tenant =>
    cases again with
    | deploy _ _ _ read scope =>
      cases body.symm.trans read
      cases tenant.symm.trans scope
      exact ⟨rfl, rfl⟩
    | submit route operates =>
      cases found.symm.trans route
      cases operates
  | submit found operates token named body tenant =>
    cases again with
    | deploy route =>
      cases found.symm.trans route
      cases operates
    | submit route asks _ name read scope =>
      cases found.symm.trans route
      obtain ⟨rfl, rfl⟩ := operates.unique asks
      cases named.symm.trans name
      cases body.symm.trans read
      cases tenant.symm.trans scope
      exact ⟨rfl, rfl⟩

theorem Carries.accepted (carries : app.Carries request operation order)
    (ok : (order.attempt store).result = .ok recorded)
    (unbroken : app.settings.requestBasePath.toList.any isHeaderBreak = false) :
    (app.handle request store).response.status = 202 := by
  rw [carries.handle_response, ok]
  exact congrArg Response.status (accepted_unbroken unbroken recorded)

/-- The order as it is sent, with a token. -/
def sending (name : String) (count : Int64) : Request :=
  ⟨.post, "/virtualization/v1beta1/virtual-machines",
    [tokenHeader], Utf8.encode (DeployOrder.ofMachines name count).text⟩

/-- A new store takes an order for some machines, under whatever name. -/
theorem sending_accepted (services : Services) {name : String} {count : Int64}
    (short : (sending name count).body.length ≤ maxBodySize)
    (allowed : checkVmCount count 1000 = .ok ()) :
    let order : Order := .deploy {} services (.ofMachines name count) {}
    let served := (App.inMemory {} services).handle (sending name count)
      { stamps := Stamp.numbered }
    (App.inMemory {} services).Carries (sending name count) .deploy order ∧
      served.response.status = 202 ∧ ∃ recorded, order.Adds {} served.store.ledger recorded := by
  intro order served
  let store : Store := { stamps := Stamp.numbered }
  have found : Route.ofTarget? "/virtualization/v1beta1/virtual-machines" = some .machines := by
    decide +kernel
  have token : (bearerToken? (sending name count)).isSome = true := bearerToken?_of_token rfl
  have body : readBody (sending name count) .deploy DeployOrder.decoder =
      .ok (.ofMachines name count) := by
    have read : Json.decodeString DeployOrder.decoder (DeployOrder.ofMachines name count).text =
        .ok (.ofMachines name count) := DeployOrder.decodeString_text ⟨nofun, nofun, nofun, nofun⟩
    have decoded : Json.decode DeployOrder.decoder (Utf8.symbols (sending name count).body) =
        .ok (.ofMachines name count) := by
      rw [sending, Utf8.symbols_encode]
      exact read
    exact readBody_of_decode short decoded
  have carries : (App.inMemory {} services).Carries (sending name count) .deploy order :=
    .deploy found rfl token body (requestScope_of_token rfl)
  have reach : StoreReach Stamp.numbered store := .start
  have fresh := reach.fresh (distinctIds_numbered (by decide : store.issued + 1 ≤ _))
  have ok : (order.attempt store).result = .ok _ :=
    @PipelineConfig.deploy_ok_of_open {} services (.ofMachines name count) {} store ⟨rfl, rfl⟩
      reach.sound fresh rfl rfl allowed
  have adds := Order.attempt_adds ok
  rw [← carries.handle_store] at adds
  exact ⟨carries, carries.accepted ok (inMemory_visible _ _).unbroken, _, adds⟩

/-- The length of a name with one letter many times. -/
theorem longestName_ofMachines (n : Nat) :
    (DeployOrder.ofMachines (String.ofList (List.replicate n 'a')) 1).longestName = n + 2 := by
  have one : (DeployOrder.ofMachines (String.ofList (List.replicate n 'a')) 1).size = 1 :=
    (by decide : (1 : Int64).toInt.toNat = 1)
  rw [DeployOrder.longestName, one, if_neg Nat.one_ne_zero]
  change (String.ofList (List.replicate n 'a')).length + 1 + 1 = n + 2
  rw [String.length_ofList, List.length_replicate]

theorem sending_short : ∀ n ∈ [253, 255],
    (sending (String.ofList (List.replicate n 'a')) 1).body.length ≤ maxBodySize := by
  intro n listed
  have tree : (DeployOrder.ofMachines (String.ofList (List.replicate n 'a')) 1).json = .object [
      ("destination", .object []), ("imageSource", .object []),
      ("vmConfig", .object [("name", .string (String.ofList (List.replicate n 'a'))),
        ("numberOfVms", .ofInt64 1)])] := rfl
  -- The name is taken out of the text as a list, which the kernel can count.
  change (Utf8.encode (DeployOrder.ofMachines (String.ofList (List.replicate n 'a')) 1).text).length ≤
    maxBodySize
  rw [Utf8.encode_eq, DeployOrder.text, Json.text, String.toList_ofList, tree]
  simp only [Json.chars, Json.write, Json.writeMembers, Json.stringChars, String.toList_ofList]
  clear tree
  revert n
  decide +kernel

/-- The rows of a request that is accepted: its own fits the table of requests, whatever its headers
say. Those of its machines fit theirs exactly if the longest of their names does, that of the last
one: nothing keeps an order from asking for longer ones. -/
theorem accepted_fits (app : App) (request : Request) (store : Store) :
    let served := app.handle request store
    served.response.status = 202 →
      ∃ operation order row machines, app.Carries request operation order ∧
        served.store.ledger.requests = store.ledger.requests ++ [row] ∧
        served.store.ledger.instances = store.ledger.instances ++ machines ∧
        row.Fits ∧ ((∀ machine ∈ machines, machine.Fits) ↔ order.longestName ≤ maxNameLength) := by
  intro served status
  obtain ⟨operation, order, recorded, carries, ok, -⟩ := carries_of_accepted status
  have adds := Order.attempt_adds ok
  rw [← carries.handle_store] at adds
  exact ⟨operation, order, recorded.request, recorded.instances, carries, adds.requests,
    adds.instances, carries.fits adds, adds.fit_iff⟩

/-- A name that leaves just enough room for the number of the only machine. -/
theorem accepted_fits_longest :
    let app := App.inMemory {} (.uniform .none .crash)
    let store : Store := { stamps := Stamp.numbered }
    let served := app.handle (sending (String.ofList (List.replicate 253 'a')) 1) store
    served.response.status = 202 ∧ ∃ row machine, served.store.ledger.requests = [row] ∧
      row.Fits ∧ served.store.ledger.instances = [machine] ∧ machine.Fits := by
  intro app store served
  obtain ⟨carries, status, recorded, adds⟩ := sending_accepted (.uniform .none .crash)
    (sending_short 253 (by simp)) rfl
  obtain ⟨operation, order, row, machines, carried, requests, instances, fits, names⟩ :=
    accepted_fits app _ store status
  obtain ⟨rfl, rfl⟩ := carried.unique carries
  have one : machines.length = 1 := by
    rw [← List.append_cancel_left (adds.instances.symm.trans instances), adds.machines]
    rfl
  obtain ⟨machine, rfl⟩ := List.length_eq_one_iff.mp one
  exact ⟨status, row, machine, requests, fits, instances,
    names.mpr (longestName_ofMachines 253).le machine (List.mem_singleton_self _)⟩

/-- Not every name of a machine fits the table: the order for one machine whose name takes all the
room by itself is accepted. -/
theorem accepted_overlong :
    ¬ ∀ (app : App) (request : Request) (store : Store), StoreReach Stamp.numbered store →
      (app.handle request store).response.status = 202 →
      ∀ row ∈ (app.handle request store).store.ledger.instances, row ∉ store.ledger.instances →
        row.vmName.length ≤ maxNameLength := by
  intro fit
  obtain ⟨-, status, recorded, adds⟩ := sending_accepted (.uniform .none .crash)
    (sending_short 255 (by simp)) rfl
  have fits (row : InstanceRow) (member : row ∈ recorded.instances) : row.Fits := by
    have long := fit _ _ _ .start status row
      (adds.instances ▸ List.mem_append_right _ member) List.not_mem_nil
    rw [adds.machines] at member
    obtain ⟨new, -, rfl⟩ := List.mem_map.mp member
    exact (new.row_fits_iff _).mpr long
  have longest : (DeployOrder.ofMachines (String.ofList (List.replicate 255 'a')) 1).longestName ≤ 255 :=
    adds.fit_iff.mp fits
  rw [longestName_ofMachines] at longest
  omega

end App

end Http

end VmAdmission
