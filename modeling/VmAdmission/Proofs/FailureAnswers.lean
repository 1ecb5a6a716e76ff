import VmAdmission.Proofs.Text.Ascii
import VmAdmission.Taxonomy

namespace VmAdmission

open Ascii (SameButCase)

/-- Where every value is listed and at most one is fit, it is the one that is found. -/
theorem find?_eq_some_iff_of_unique {α : Type} {fit : α → Bool} {entries : List α} {entry : α}
    (all : ∀ a, a ∈ entries) (unique : ∀ a b, fit a = true → fit b = true → a = b) :
    entries.find? fit = some entry ↔ fit entry = true := by
  constructor
  · exact List.find?_some
  · intro fits
    cases found : entries.find? fit with
    | none => exact absurd fits (List.find?_eq_none.mp found entry (all entry))
    | some other => rw [unique other entry (List.find?_some found) fits]

theorem mem_errorCodes (code : ErrorCode) : code ∈ ErrorCode.all := by
  cases code <;> decide

theorem ErrorCode.name_injective : Function.Injective ErrorCode.name := by
  have apart : ∀ a ∈ all, ∀ b ∈ all, a.name = b.name → a = b := by decide
  exact fun a b => apart a (mem_errorCodes a) b (mem_errorCodes b)

/-- A code is known by its name and by nothing else. -/
theorem ErrorCode.ofName?_eq_some_iff {text : String} {code : ErrorCode} :
    ofName? text = some code ↔ text = code.name := by
  have unique (a b : ErrorCode) (first : (a.name == text) = true)
      (second : (b.name == text) = true) : a = b :=
    name_injective ((eq_of_beq first).trans (eq_of_beq second).symm)
  rw [ofName?, find?_eq_some_iff_of_unique mem_errorCodes unique, beq_iff_eq, eq_comm]

theorem ErrorCode.resolve_name (code : ErrorCode) : resolve code.name = code := by
  rw [resolve, ofName?_eq_some_iff.mpr rfl]
  rfl

theorem ErrorCode.resolve_unknown {text : String} (unknown : ∀ code : ErrorCode, text ≠ code.name) :
    resolve text = .internalError := by
  have none : ofName? text = none := Option.eq_none_iff_forall_ne_some.mpr
    fun code found => unknown code (ofName?_eq_some_iff.mp found)
  rw [resolve, none]
  rfl

theorem Operation.mem_all (op : Operation) : op ∈ Operation.all := by
  cases op <;> decide

theorem StatusClass.httpStatus_eq_iff {one other : StatusClass} :
    one.httpStatus = other.httpStatus ↔ one = other := by
  cases one <;> cases other <;> decide

namespace ApiOperation

theorem mem_all (operation : ApiOperation) : operation ∈ all := by
  cases operation with
  | lifecycle op => exact List.mem_append_left _ (List.mem_map_of_mem op.mem_all)
  | getRequest | listRequests => decide

/-- No text is the name of two operations, even without regard to case. -/
theorem name_unique {text : String} {one other : ApiOperation} (first : SameButCase text one.name)
    (second : SameButCase text other.name) : one = other := by
  have apart : ∀ a ∈ all, ∀ b ∈ all, Ascii.alike a.name b.name = true → a = b := by decide
  refine apart one (mem_all one) other (mem_all other) ?_
  have alike := Ascii.alike_iff.mpr first
  have again := Ascii.alike_iff.mpr second
  simp only [Ascii.alike, beq_iff_eq] at alike again ⊢
  exact alike.symm.trans again

/-- An operation is known by its name in any case, and by nothing else. -/
theorem ofName?_eq_some_iff {text : String} {operation : ApiOperation} :
    ofName? text = some operation ↔ SameButCase text operation.name := by
  -- A name that is tried earlier is no name of another operation.
  rw [ofName?]
  split
  next single =>
    have named := Ascii.alike_iff.mp single
    exact ⟨fun found => Option.some.inj found ▸ named, fun also => by rw [name_unique named also]⟩
  split
  next several =>
    have named := Ascii.alike_iff.mp several
    exact ⟨fun found => Option.some.inj found ▸ named, fun also => by rw [name_unique named also]⟩
  next single several =>
    cases operation with
    | getRequest => simp [← Ascii.alike_iff, single]
    | listRequests => simp [← Ascii.alike_iff, several]
    | lifecycle op =>
      have unique (a b : Operation) (first : Ascii.alike a.name text = true)
          (second : Ascii.alike b.name text = true) : a = b := by
        rw [Ascii.alike_comm, Ascii.alike_iff] at first second
        have named : SameButCase text (lifecycle a).name := first
        have again : SameButCase text (lifecycle b).name := second
        exact lifecycle.inj (name_unique named again)
      rw [Option.map_eq_some_iff, ← Ascii.alike_iff, Ascii.alike_comm]
      simp only [Operation.ofName?, lifecycle.injEq, exists_eq_right,
        find?_eq_some_iff_of_unique Operation.mem_all unique, name]

end ApiOperation

namespace ErrorReport

theorem internal_mem_typedClasses (operation : ApiOperation) :
    .internal ∈ operation.typedClasses := by
  cases operation with
  | lifecycle op => cases op <;> decide
  | getRequest | listRequests => decide

/-- An operation answers in a class that it declares: that of the code, or the internal one. -/
theorem typedClass_cases (operation : ApiOperation) (code : ErrorCode) :
    typedClass operation code ∈ operation.typedClasses ∧
      (typedClass operation code = code.statusClass ∨ typedClass operation code = .internal) := by
  unfold typedClass
  split
  · exact ⟨‹_›, .inl rfl⟩
  · exact ⟨internal_mem_typedClasses operation, .inr rfl⟩

/-- The status of an operation's answer is not that of the body only where the operation does not
declare the class of the code, and then the answer is an internal one. -/
theorem mapTyped_httpStatus_ne_iff (report : ErrorReport) (operation : ApiOperation) :
    (report.mapTyped operation).httpStatus ≠ report.body.httpStatus ↔
      report.body.code.statusClass ∉ operation.typedClasses := by
  have status : (report.mapTyped operation).httpStatus =
      (typedClass operation report.body.code).httpStatus := rfl
  have told : report.body.httpStatus = report.body.code.statusClass.httpStatus := rfl
  rw [status, told, Ne, StatusClass.httpStatus_eq_iff, typedClass]
  split
  next declared =>
    exact ⟨fun differ => absurd rfl differ, fun undeclared => absurd declared undeclared⟩
  next undeclared =>
    have other : StatusClass.internal ≠ report.body.code.statusClass :=
      fun internal => undeclared (internal ▸ internal_mem_typedClasses operation)
    exact ⟨fun _ => undeclared, fun _ => other⟩

theorem mapNamed_eq_mapTyped {report : ErrorReport} {text : String} {operation : ApiOperation}
    (named : SameButCase text operation.name) :
    report.mapNamed text = report.mapTyped operation := by
  rw [mapNamed, ApiOperation.ofName?_eq_some_iff.mpr named]
  rfl

theorem mapNamed_eq_mapUntyped {report : ErrorReport} {text : String}
    (unnamed : ∀ operation : ApiOperation, ¬ SameButCase text operation.name) :
    report.mapNamed text = report.mapUntyped := by
  have none : ApiOperation.ofName? text = none := Option.eq_none_iff_forall_ne_some.mpr
    fun operation found => unnamed operation (ApiOperation.ofName?_eq_some_iff.mp found)
  rw [mapNamed, none]
  rfl

theorem map_body (report : ErrorReport) (operation : Option ApiOperation) :
    (report.map operation).body = report.body := by
  cases operation <;> rfl

/-- The statuses of an answer and of its body differ only where an operation is named that does not
declare the class of the code. -/
theorem mapNamed_httpStatus_ne_iff (report : ErrorReport) (text : String) :
    (report.mapNamed text).httpStatus ≠ report.body.httpStatus ↔
      ∃ operation : ApiOperation, SameButCase text operation.name ∧
        report.body.code.statusClass ∉ operation.typedClasses := by
  by_cases named : ∃ operation : ApiOperation, SameButCase text operation.name
  · obtain ⟨operation, named⟩ := named
    rw [mapNamed_eq_mapTyped named, mapTyped_httpStatus_ne_iff]
    constructor
    · exact fun undeclared => ⟨operation, named, undeclared⟩
    · rintro ⟨other, also, undeclared⟩
      exact ApiOperation.name_unique named also ▸ undeclared
  · rw [mapNamed_eq_mapUntyped (not_exists.mp named)]
    constructor
    · exact fun differ => absurd rfl differ
    · exact fun ⟨operation, also, _⟩ => absurd ⟨operation, also⟩ named

/-- Every report is answered under every name of an operation. The name is that of at most one
operation, in any case; the code is one of the known ones if it is exactly its name, and else the
internal one. The operation answers in the class of the code if it declares that, and as for an
internal failure if not; where there is no operation, the answer is a generic one in the class of
the code. The body has the code, the status of its class and the message as it is. So the answer has
another status only where an operation does not declare the class, and it is 500 there. -/
theorem mapNamed_answers (report : ErrorReport) (text : String) :
    let answer := report.mapNamed text
    let code := answer.body.code
    (∀ operation, ApiOperation.ofName? text = some operation ↔ SameButCase text operation.name) ∧
    (∀ one other : ApiOperation, SameButCase text one.name → SameButCase text other.name →
      one = other) ∧
    (∀ known, ErrorCode.ofName? report.code = some known ↔ report.code = known.name) ∧
    (∀ known : ErrorCode, report.code = known.name → code = known) ∧
    ((∀ known : ErrorCode, report.code ≠ known.name) → code = .internalError) ∧
    (∀ operation : ApiOperation, SameButCase text operation.name →
      (code.statusClass ∈ operation.typedClasses →
        answer.shape = .typed operation code.statusClass) ∧
      (code.statusClass ∉ operation.typedClasses → answer.shape = .typed operation .internal) ∧
      answer.shape.statusClass ∈ operation.typedClasses) ∧
    ((∀ operation : ApiOperation, ¬ SameButCase text operation.name) →
      answer.shape = .generic code.statusClass) ∧
    answer.body = ⟨code, code.statusClass.httpStatus, report.message⟩ ∧
    (answer.httpStatus ≠ answer.body.httpStatus ↔
      ∃ operation : ApiOperation, SameButCase text operation.name ∧
        code.statusClass ∉ operation.typedClasses) ∧
    (answer.httpStatus ≠ answer.body.httpStatus → answer.httpStatus = 500) := by
  intro answer code
  have body : answer.body = report.body := map_body report _
  have resolved : code = ErrorCode.resolve report.code := congrArg ErrorBody.code body
  have typed (operation : ApiOperation) (named : SameButCase text operation.name) :
      answer.shape = .typed operation (typedClass operation code) :=
    resolved ▸ congrArg MappedError.shape (mapNamed_eq_mapTyped named)
  have differs : answer.httpStatus ≠ answer.body.httpStatus ↔
      ∃ operation : ApiOperation, SameButCase text operation.name ∧
        code.statusClass ∉ operation.typedClasses := by
    rw [body, show code = report.body.code from resolved]
    exact mapNamed_httpStatus_ne_iff report text
  refine ⟨fun _ => ApiOperation.ofName?_eq_some_iff, fun _ _ => ApiOperation.name_unique,
    fun _ => ErrorCode.ofName?_eq_some_iff, fun known exact => ?code, fun unknown => ?unknown,
    fun operation named => ⟨fun declared => ?declared, fun undeclared => ?fallback, ?declares⟩,
    fun unnamed => ?generic, ?body, differs, fun differ => ?status⟩
  case code => rw [resolved, exact, ErrorCode.resolve_name]
  case unknown => rw [resolved, ErrorCode.resolve_unknown unknown]
  case declared => rw [typed operation named, typedClass, if_pos declared]
  case fallback => rw [typed operation named, typedClass, if_neg undeclared]
  case declares =>
    rw [typed operation named]
    exact (typedClass_cases operation code).1
  case generic => exact resolved ▸ congrArg MappedError.shape (mapNamed_eq_mapUntyped unnamed)
  case body =>
    rw [body, resolved]
    rfl
  case status =>
    obtain ⟨operation, named, undeclared⟩ := differs.mp differ
    rw [MappedError.httpStatus, typed operation named, typedClass, if_neg undeclared]
    rfl

end ErrorReport

end VmAdmission
