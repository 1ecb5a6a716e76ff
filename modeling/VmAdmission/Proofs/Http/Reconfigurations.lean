import VmAdmission.Proofs.Http.Responses
import VmAdmission.Proofs.Operations
import VmAdmission.Proofs.StoredOrders

namespace VmAdmission

namespace Json

/-- The tree, unless it is `null`. -/
def Canonical.present? (c : Canonical) : Option Canonical :=
  match c.json with
  | .null => none
  | _ => some c

theorem Canonical.present?_of_ne {c : Canonical} (notNull : c.json ≠ .null) :
    c.present? = some c := by
  unfold present?
  split
  · exact absurd ‹_› notNull
  · rfl

theorem ne_null_of_depth {j : Json} (deepest : j.depth = maxLevels) : j ≠ .null := by
  rintro rfl
  cases deepest

/-- Arrays inside each other. -/
def Canonical.brackets : Nat → Canonical
  | 0 => .array []
  | n + 1 => .array [brackets n]

theorem Canonical.brackets_depth (n : Nat) : (brackets n).json.depth = n + 1 := by
  induction n with
  | zero => rfl
  | succ n ih => simp [brackets, array, depth, depthOfItems, ih]

theorem Canonical.brackets_integral (n : Nat) : (brackets n).json.IsIntegral := by
  induction n with
  | zero => exact .array nofun
  | succ n ih => exact .array fun item listed => List.mem_singleton.mp listed ▸ ih

theorem reads_option_null {α : Type} {decoder : Decoder α} {budget : Budget} :
    Reads (Decoder.option decoder) budget .null none := by
  intro cur rest ends next
  rw [chars_null] at next
  simp only [Decoder.option, Cursor.blanks_eq next (by decide), next]
  exact (word_leaves (Cursor.skip_rest next)).bind fun _ left => yields_ok left

end Json

open Json

namespace VmOrder

theorem reads_null (vmId : String) {budget : Budget} {levels : Nat}
    (open_ : budget.levels = levels + 1)
    (room : (json ⟨vmId, some .null⟩).chars.length ≤ budget.symbols) :
    Reads decoder budget (json ⟨vmId, some .null⟩) ⟨vmId, none⟩ := by
  let final : Draft := ⟨some vmId, some none⟩
  refine reads_ofPresent final open_ ?_ rfl room
  refine filled_needed rfl rfl (fun room => reads_string (by rwa [chars_string] at room)) ?_
  exact filled_needed rfl rfl (fun _ => reads_option_null) filled_nil

/-- The text of an order is read back unless its section takes all the levels that there are. -/
theorem decodeString_text_present {vmId : String} {spec : Canonical}
    (integral : spec.json.IsIntegral) (shallow : spec.json.depth < maxLevels) :
    decodeString decoder (text ⟨vmId, some spec⟩) = .ok ⟨vmId, spec.present?⟩ := by
  by_cases null : spec.json = .null
  · obtain rfl : spec = .null := Canonical.eq_of_json null
    exact Json.decodeString_text (reads_null vmId rfl (Nat.le_succ _))
  · rw [Canonical.present?_of_ne null]
    refine decodeString_text ?_
    rintro _ ⟨⟩
    exact ⟨⟨null, Nat.le_pred_of_lt shallow⟩, integral⟩

theorem exists_decodeString_text (vmId : String) {spec : Canonical}
    (shallow : spec.json.depth < maxLevels) :
    ∃ reread, decodeString decoder (text ⟨vmId, some spec⟩) = .ok ⟨vmId, reread⟩ := by
  by_cases null : spec.json = .null
  · obtain rfl : spec = .null := Canonical.eq_of_json null
    exact ⟨none, Json.decodeString_text (reads_null vmId rfl (Nat.le_succ _))⟩
  · let budget : Budget := ⟨(json ⟨vmId, some spec⟩).chars.length + 1, maxLevels⟩
    obtain ⟨reread, reads⟩ : ∃ reread, Reads decoder budget _ _ :=
      exists_reads vmId null (Nat.le_pred_of_lt shallow) rfl (Nat.le_succ _)
    exact ⟨some reread, Json.decodeString_text reads⟩

end VmOrder

/-- What is recorded of an operation on a machine is its own row, which is in the ledger then. -/
theorem PipelineConfig.submit_recorded {config : PipelineConfig} {services : Services}
    {operation : Operation} {order : VmOrder} {scope : Scope} {store : Store} {recorded : Recorded}
    (other : operation ≠ .deploy)
    (ok : ((config.submit services operation order scope).run config.admission.storeTimeout
      store).result = .ok recorded) :
    order.vmId ∉ namelessIds ∧
      recorded.request = (scope.newRequest operation .new order.text).row store.nextStamp ∧
      recorded.request ∈ ((config.submit services operation order scope).run
        config.admission.storeTimeout store).store.ledger.requests := by
  obtain ⟨dialogue, passed, recording⟩ := Submission.run_ok_iff.mp ok
  obtain ⟨named, -, rfl⟩ := (submit_passed_iff other).mp passed
  obtain ⟨memory, row⟩ := recordRequest_ok recording
  refine ⟨named, row, ?_⟩
  rw [(Submission.run_passed passed).2]
  exact (recordRequest_other_end memory other).recorded_mem recording

namespace Http.App

section

variable {request : Request} {vmId : String} {spec : Canonical} {scope : Scope} {store : Store}

/-- A tree that is sent as it is written is taken. -/
theorem operate_written (app : App) (request : Request) (plain : '%' ∉ vmId.toList)
    (integral : spec.json.IsIntegral) (fits : spec.json.depth ≤ maxLevels)
    (body : request.body = Utf8.encode spec.json.text)
    (short : request.body.length ≤ maxBodySize) (tenant : requestScope request = .ok scope) :
    decode tree (Utf8.symbols request.body) = .ok spec ∧
      app.operate request .reconfigure vmId =
        .ok (app.settings.pipeline.submit app.services .reconfigure ⟨vmId, some spec⟩ scope) := by
  have decoded : decode tree (Utf8.symbols request.body) = .ok spec := by
    rw [body, Utf8.symbols_encode]
    exact Json.decodeString_text (tree_yields spec.isCanonical integral (Nat.le_succ _) fits)
  have read : readBody request .reconfigure tree = .ok spec := readBody_of_decode short decoded
  refine ⟨decoded, ?_⟩
  rw [operate_eq, parameter_plain plain, App.spec?, if_pos rfl, read, tenant]
  rfl

/-- Without checks, a reconfiguration of a machine with a name is recorded. -/
theorem submit_unchecked (app : App) (spec : Option Canonical) (scope : Scope)
    (disabled : app.settings.pipeline.validation.enabled = false)
    (named : vmId ∉ PipelineConfig.namelessIds) (memory : store.backend = .memory)
    (writes : store.WritesRequests app.settings.pipeline.admission.storeTimeout) :
    ∃ recorded, ((app.settings.pipeline.submit app.services .reconfigure ⟨vmId, spec⟩ scope).run
      app.settings.pipeline.admission.storeTimeout store).result = .ok recorded :=
  (PipelineConfig.submit_ok_iff memory (by decide)).mpr
    ⟨named, PipelineConfig.validateVm_disabled disabled, writes⟩

/-- There is a body that takes all the levels that a text may have. -/
theorem exists_deepest : ∃ spec : Canonical, spec.json.depth = maxLevels ∧
    spec.json.IsIntegral ∧ (Utf8.encode spec.json.text).length ≤ maxBodySize :=
  ⟨.brackets 126, Canonical.brackets_depth 126, Canonical.brackets_integral 126, by decide +kernel⟩

end

end Http.App

end VmAdmission
