import VmAdmission.Proofs.Http.Orders
import VmAdmission.Proofs.Http.Paths
import VmAdmission.Proofs.Http.Reconfigurations

namespace VmAdmission

open Json

namespace Json

/-- A written string is told from another one by its beginning alone. -/
theorem stringChars_append_inj {s t : String} {behind other : List Char}
    (same : stringChars s ++ behind = stringChars t ++ other) : s = t := by
  let budget : Budget := ⟨(stringChars s).length + (stringChars t).length, 0⟩
  let cur : Cursor := .start ((stringChars s ++ behind).map .char)
  obtain ⟨after, read, -⟩ : Yields (stringBody budget cur.skip) s _ :=
    stringBody_yields (Nat.le_add_right _ _)
      (by simp only [cur, Cursor.start, List.map_append] : _ = _ ++ behind.map .char)
  obtain ⟨after', again, -⟩ : Yields (stringBody budget cur.skip) t _ :=
    stringBody_yields (Nat.le_add_left _ _)
      (by simp only [cur, Cursor.start, same, List.map_append] : _ = _ ++ other.map .char)
  rw [read] at again
  cases again
  rfl

end Json

/-- Orders for different machines have different texts. -/
theorem VmOrder.vmId_of_text {a b : VmOrder} (same : a.text = b.text) : a.vmId = b.vmId := by
  have first (o : VmOrder) : ∃ behind, o.json.chars =
      '{' :: (stringChars "vmId" ++ ':' :: (stringChars o.vmId ++ behind)) := by
    obtain ⟨more, members⟩ : ∃ more, o.json = .object (("vmId", .string o.vmId) :: more) :=
      ⟨_, rfl⟩
    refine ⟨moreMembers more ++ ['}'], ?_⟩
    rw [members, chars_object_cons, memberChars, chars_string]
    simp only [List.append_assoc, List.cons_append]
  obtain ⟨behind, form⟩ := first a
  obtain ⟨other, form'⟩ := first b
  have chars : a.json.chars = b.json.chars := String.ofList_injective same
  rw [form, form', List.cons.injEq] at chars
  obtain ⟨-, ids⟩ := List.cons.inj (List.append_cancel_left chars.2)
  exact stringChars_append_inj ids

namespace Http

open Percent (Spells)

/-- The request asks for the operation on the machine, in a way that the interface can read: the id
of the machine stands in its path in some spelling, it shows a token, and its headers and its body
say nothing wrong. -/
structure Request.AsksFor (request : Request) (operation : Operation) (vmId : String)
    (spec : Option Canonical) : Prop where
  address : ∃ rawId : String, Spells rawId.toList (Utf8.encode vmId) ∧
    Route.AskedAt rawId request.method request.target operation
  named : vmId ∉ PipelineConfig.namelessIds
  token : (bearerToken? request).isSome = true
  tenant : ∃ scope, requestScope request = .ok scope
  body : App.spec? request operation = .ok spec

namespace App

variable {app : App} {request : Request} {store : Store} {operation : Operation} {vmId : String}
  {spec : Option Canonical}

/-- What is carried out is just the operation that is asked for, on the machine with just this
id. -/
theorem carries_of_asksFor (app : App) (asks : request.AsksFor operation vmId spec) :
    operation ≠ .deploy ∧ ∃ scope, app.Carries request operation
      (.submit app.settings.pipeline app.services operation ⟨vmId, spec⟩ scope) := by
  obtain ⟨rawId, spelled, asked⟩ := asks.address
  obtain ⟨scope, tenant⟩ := asks.tenant
  have parameter := parameter_spelled spelled "vm_id"
  have nonempty : rawId ≠ "" := by
    rintro rfl
    have empty : Http.parameter "vm_id" "" = .ok "" := parameter_plain (by decide) "vm_id"
    cases empty.symm.trans parameter
    exact asks.named (by decide)
  have whole : Route.IsSegment rawId := by
    refine ⟨?_, ?_, ?_⟩ <;> exact spelled.inside (by decide)
  obtain ⟨route, found, operates⟩ := asked.operates nonempty whole
  exact ⟨operates.ne_deploy found, scope,
    .submit found operates asks.token parameter asks.body tenant⟩

/-- What is recorded is one request with the operation and the text of the order. -/
theorem handle_asksFor (asks : request.AsksFor operation vmId spec)
    (unchecked : app.settings.pipeline.validation.enabled = false)
    (memory : store.backend = .memory)
    (writes : store.WritesRequests app.settings.pipeline.admission.storeTimeout) :
    ∃ row : RequestRow, (app.handle request store).response = accepted app.settings ⟨row, []⟩ ∧
      (app.handle request store).store.ledger.requests = store.ledger.requests ++ [row] ∧
      (app.handle request store).store.ledger.instances = store.ledger.instances ∧
      row.operation = operation ∧ row.metadata = VmOrder.text ⟨vmId, spec⟩ := by
  obtain ⟨other, scope, carries⟩ := app.carries_of_asksFor asks
  let order : Order := .submit app.settings.pipeline app.services operation ⟨vmId, spec⟩ scope
  obtain ⟨recorded, ok⟩ : ∃ recorded, (order.attempt store).result = .ok recorded :=
    (PipelineConfig.submit_ok_iff memory other).mpr
      ⟨asks.named, PipelineConfig.validateVm_disabled unchecked, writes⟩
  obtain ⟨-, row, -⟩ := PipelineConfig.submit_recorded other ok
  have adds := order.attempt_adds ok
  obtain ⟨request', machines⟩ := recorded
  obtain rfl : machines = [] := adds.machines
  refine ⟨request', ?_, ?_, ?_, congrArg RequestRow.operation row,
    congrArg RequestRow.metadata row⟩
  · rw [carries.handle_response]
    exact congrArg (app.answer operation) ok
  · rw [carries.handle_store]
    exact adds.requests
  · rw [carries.handle_store, adds.instances, List.append_nil]

/-- Of operations that only name their machine, nothing else is asked. -/
theorem spec?_of_ne (other : operation ≠ .reconfigure)
    (body : App.spec? request operation = .ok spec) : spec = none := by
  rw [App.spec?, if_neg other] at body
  cases body
  rfl

/-- The body of a reconfiguration is a tree. -/
theorem spec?_reconfigure (body : App.spec? request .reconfigure = .ok spec) :
    ∃ tree, spec = some tree ∧ decode Json.tree (Utf8.symbols request.body) = .ok tree ∧
      tree.json.depth ≤ maxLevels := by
  rw [App.spec?, if_pos rfl] at body
  cases read : readBody request .reconfigure Json.tree with
  | error response =>
    rw [read] at body
    cases body
  | ok tree =>
    rw [read] at body
    cases body
    have decoded := readBody_ok read
    exact ⟨tree, rfl, decoded,
      decode_gives (P := fun c => c.json.depth ≤ maxLevels) treeFrom_gives_depth decoded⟩

/-- The machine with the id is to be changed, as it is asked for with a token, its id encoded as a
segment of a path. -/
def changing (vmId : String) (body : List UInt8) : Request :=
  ⟨.patch, "/virtualization/v1beta1/virtual-machines/" ++
      Percent.encode (Percent.segment false) vmId,
    [tokenHeader], body⟩

theorem changing_asksFor {body : List UInt8} {tree : Canonical}
    (named : vmId ∉ PipelineConfig.namelessIds) (short : body.length ≤ maxBodySize)
    (read : decode Json.tree (Utf8.symbols body) = .ok tree) :
    (changing vmId body).AsksFor .reconfigure vmId (some tree) where
  address := ⟨_, Percent.spells_encode (Percent.segment_of_reserved false) vmId, .reconfigure⟩
  named := named
  token := bearerToken?_of_token rfl
  tenant := ⟨{}, requestScope_of_token rfl⟩
  body := by
    have read : readBody (changing vmId body) .reconfigure Json.tree = .ok tree :=
      readBody_of_decode short read
    rw [App.spec?, if_pos rfl, read]
    rfl

end App

end Http

end VmAdmission
