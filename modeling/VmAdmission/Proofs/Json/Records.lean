import VmAdmission.Proofs.Json.Skipping

namespace VmAdmission.Json

/-- The decoder reads the written tree as the value. -/
def Reads {α : Type} (decoder : Decoder α) (budget : Budget) (j : Json) (x : α) : Prop :=
  ∀ cur rest, Ends rest → cur.rest = j.chars.map .char ++ rest → Yields (decoder budget cur) x rest

/-- Reading a member turns one draft into another. -/
def Sets {σ α : Type} (shape : Decoder.Shape σ α) (budget : Budget) (draft : σ)
    (member : String × Json) (draft' : σ) : Prop :=
  ∀ cur rest, Ends rest → cur.rest = .char ':' :: (member.2.chars.map .char ++ rest) →
    ∃ set, Yields (Decoder.memberValue shape member.1 draft budget cur) set rest ∧
      set draft = draft'

/-- Reading members one after the other turns one draft into another. -/
inductive Fills {σ α : Type} (shape : Decoder.Shape σ α) (budget : Budget) :
    σ → List (String × Json) → σ → Prop
  | nil {draft : σ} : Fills shape budget draft [] draft
  | cons {draft draft' final : σ} {member : String × Json} {members : List (String × Json)} :
      Sets shape budget draft member draft' → Fills shape budget draft' members final →
      Fills shape budget draft (member :: members) final

section Shape

variable {σ α : Type} {shape : Decoder.Shape σ α} {budget : Budget} {draft draft' final : σ}

/-- The record has no field of that name. -/
def Unknown (shape : Decoder.Shape σ α) (key : String) : Prop :=
  shape.fields.find? (·.isNamed key) = none

theorem sets_unknown {key : String} {j : Json} (other : shape.other = Decoder.skipMember)
    (unknown : Unknown shape key) (room : j.chars.length < budget.symbols) :
    Sets shape budget draft (key, j) draft := by
  intro cur rest ends next
  refine ⟨id, ?_, rfl⟩
  unfold Unknown at unknown
  simp only [Decoder.memberValue, unknown, other]
  exact (colon_leaves next).bind fun _ left =>
    (skipValue_leaves room ends left).bind fun _ left => yields_ok left

theorem fills_unknown {members : List (String × Json)} (other : shape.other = Decoder.skipMember)
    (unknown : ∀ member ∈ members,
      Unknown shape member.1 ∧ member.2.chars.length < budget.symbols) :
    Fills shape budget draft members draft := by
  induction members with
  | nil => exact .nil
  | cons member members ih =>
    obtain ⟨skipped, room⟩ := unknown member (by simp)
    exact .cons (sets_unknown other skipped room) (ih fun m inside => unknown m (by simp [inside]))

theorem sets_field {β : Type} {name key : String} {needed : Bool} {get : σ → Option β}
    {set : σ → β → σ} {value : Decoder β} {j : Json} {x : β}
    (field : shape.fields.find? (·.isNamed key) = some (.of name needed get set value))
    (unset : get draft = none) (reads : Reads value budget j x) :
    Sets shape budget draft (key, j) (set draft x) := by
  intro cur rest ends next
  refine ⟨fun draft => set draft x, ?_, rfl⟩
  simp only [Decoder.memberValue, field]
  have free : ¬ ((Decoder.Field.of name needed get set value).isSet draft) = true := by
    simp [Decoder.Field.of, unset]
  rw [if_neg free]
  exact (colon_leaves next).bind fun cur left =>
    (reads cur rest ends left).bind fun _ left => yields_ok left

/-- A member that is read comes to the members after it. -/
theorem recordMembers_eq {first : Bool} {symbols : Nat} {member : String × Json} {cur : Cursor}
    {middle : List Symbol} (sets : Sets shape budget draft member draft')
    (room : (memberChars member).length ≤ budget.symbols) (ends : Ends middle)
    (goesOn : Yields (hasMember first cur) true ((memberChars member).map .char ++ middle)) :
    ∃ after : Cursor, after.rest = middle ∧
      Decoder.recordMembers shape budget (symbols + 1) first draft cur =
        Decoder.recordMembers shape budget symbols false draft' after := by
  obtain ⟨atKey, more, left⟩ := goesOn
  have text : atKey.rest = (stringChars member.1).map .char ++
      .char ':' :: (member.2.chars.map .char ++ middle) := by simpa [memberChars] using left
  simp only [memberChars, List.length_append, List.length_cons] at room
  have short : (stringChars member.1).length ≤ budget.symbols := by omega
  obtain ⟨behindKey, key, left⟩ := stringBody_yields short text
  obtain ⟨set, ⟨after, read, left⟩, rfl⟩ := sets behindKey middle ends left
  refine ⟨after, left, ?_⟩
  simp only [Decoder.recordMembers, more, bind, Except.bind, if_true, key, read]

theorem recordMembers_round {first : Bool} {symbols : Nat} {member : String × Json} {cur : Cursor}
    {middle rest : List Symbol} (sets : Sets shape budget draft member draft')
    (room : (memberChars member).length ≤ budget.symbols) (ends : Ends middle)
    (goesOn : Yields (hasMember first cur) true ((memberChars member).map .char ++ middle))
    (further : ∀ cur, cur.rest = middle →
      Yields (Decoder.recordMembers shape budget symbols false draft' cur) final rest) :
    Yields (Decoder.recordMembers shape budget (symbols + 1) first draft cur) final rest := by
  obtain ⟨after, left, same⟩ := recordMembers_eq sets room ends goesOn
  rw [same]
  exact further after left

theorem recordMembers_more {members : List (String × Json)} {symbols : Nat} {cur : Cursor}
    {rest : List Symbol} (fills : Fills shape budget draft members final)
    (rounds : members.length < symbols) (room : (moreMembers members).length ≤ budget.symbols)
    (next : cur.rest = (moreMembers members ++ ['}']).map .char ++ rest) :
    Yields (Decoder.recordMembers shape budget symbols false draft cur) final
      (.char '}' :: rest) := by
  induction fills generalizing symbols cur with
  | nil =>
    obtain ⟨symbols, rfl⟩ := Nat.exists_eq_add_one.mpr (Nat.zero_lt_of_lt rounds)
    exact (hasMember_brace next).bind fun _ left => yields_ok left
  | @cons draft draft' final member members sets _ ih =>
    obtain ⟨symbols, rfl⟩ := Nat.exists_eq_add_one.mpr (Nat.zero_lt_of_lt rounds)
    simp only [List.length_cons, Nat.add_lt_add_iff_right] at rounds
    simp only [moreMembers_cons, List.length_cons, List.length_append] at room
    have text : cur.rest = .char ',' :: ((memberChars member).map .char ++
        ((moreMembers members ++ ['}']).map .char ++ rest)) := by
      simpa [moreMembers_cons] using next
    exact recordMembers_round sets (by omega) (ends_moreMembers members rest) (hasMember_comma text)
      fun cur left => ih rounds (by omega) left

theorem length_le_moreMembers (members : List (String × Json)) :
    members.length ≤ (moreMembers members).length := by
  induction members with
  | nil => exact Nat.le_refl _
  | cons member members ih =>
    simp only [moreMembers_cons, List.length_cons, List.length_append]
    omega

theorem recordMembers_yields {members : List (String × Json)} {cur : Cursor} {rest : List Symbol}
    (fills : Fills shape budget draft members final)
    (room : (chars (.object members)).length ≤ budget.symbols)
    (next : cur.rest = (chars (.object members)).map .char ++ rest) :
    Yields (Decoder.recordMembers shape budget budget.symbols true draft cur.skip) final
      (.char '}' :: rest) := by
  cases fills with
  | nil =>
    rw [chars_object_nil] at room next
    obtain ⟨symbols, some⟩ := Nat.exists_eq_add_one.mpr (Nat.zero_lt_of_lt room)
    rw [some]
    exact (hasMember_brace (Cursor.skip_rest next)).bind fun _ left => yields_ok left
  | @cons _ draft' _ member members sets fills =>
    rw [chars_object_cons] at room next
    have few := length_le_moreMembers members
    simp only [List.length_cons, List.length_append] at room
    have text : cur.rest = .char '{' :: ((memberChars member).map .char ++
        ((moreMembers members ++ ['}']).map .char ++ rest)) := by simpa using next
    obtain ⟨symbols, some⟩ : ∃ k, budget.symbols = k + 1 := Nat.exists_eq_add_one.mpr (by omega)
    rw [some]
    refine recordMembers_round sets (by omega) (ends_moreMembers members rest)
      (hasMember_first (Cursor.skip_rest text)) fun cur left => ?_
    exact recordMembers_more fills (by omega) (by omega) left

theorem chars_object (members : List (String × Json)) :
    ∃ cs, chars (.object members) = '{' :: cs := by
  cases members with
  | nil => exact ⟨_, chars_object_nil⟩
  | cons member members => exact ⟨_, chars_object_cons ..⟩

/-- A written object whose members make the record is read as the record. -/
theorem reads_record {members : List (String × Json)} {levels : Nat} {x : α}
    (open_ : budget.levels = levels + 1)
    (fills : Fills shape { budget with levels } shape.empty members final)
    (built : shape.build final = .ok x) (room : (chars (.object members)).length ≤ budget.symbols) :
    Reads (Decoder.record shape) budget (.object members) x := by
  intro cur rest ends next
  obtain ⟨cs, form⟩ := chars_object members
  have first : cur.rest = .char '{' :: (cs.map .char ++ rest) := by simpa [form] using next
  simp only [Decoder.record, Cursor.blanks_eq first (by decide), first, Decoder.recordObject,
    Decoder.nested, open_]
  refine (recordMembers_yields fills room next).bind fun cur left => ?_
  simp only [Decoder.finish, built]
  exact yields_ok (Cursor.skip_rest left)

end Shape

theorem reads_string {s : String} {budget : Budget}
    (room : (stringChars s).length ≤ budget.symbols) :
    Reads Decoder.string budget (.string s) s := by
  intro cur rest ends next
  rw [chars_string] at next
  have first : cur.rest = .char '"' ::
      ((s.toList.flatMap escape ++ ['"']).map .char ++ rest) := by simpa [stringChars] using next
  simp only [Decoder.string, Decoder.stringFor, Cursor.blanks_eq first (by decide), first]
  exact stringBody_yields room next

theorem reads_int64 {n : Int64} {budget : Budget} :
    Reads Decoder.int64 budget (.ofInt64 n) n := by
  intro cur rest ends next
  rw [ofInt64, chars_number] at next
  exact int64_yields ends next

theorem reads_bool {b : Bool} {budget : Budget} : Reads Decoder.bool budget (.bool b) b := by
  intro cur rest ends next
  cases b with
  | true =>
    rw [chars_true] at next
    simp only [Decoder.bool, Cursor.blanks_eq next (by decide), next]
    exact (word_leaves (Cursor.skip_rest next)).bind fun _ left => yields_ok left
  | false =>
    rw [chars_false] at next
    simp only [Decoder.bool, Cursor.blanks_eq next (by decide), next]
    exact (word_leaves (Cursor.skip_rest next)).bind fun _ left => yields_ok left

/-- Only `null` is written with an `n` first. -/
theorem chars_ne_null {j : Json} (notNull : j ≠ .null) (cs : List Char) : j.chars ≠ 'n' :: cs := by
  intro form
  cases j with
  | null => exact notNull rfl
  | bool b => cases b <;> simp [chars_true, chars_false] at form
  | number n =>
    rw [chars_number] at form
    obtain ⟨sign, digits, written, rfl | rfl, unsigned⟩ := isNumeral_numberChars n
    · obtain ⟨c, ds, rfl, digit, -⟩ := numeral_head unsigned
      have same : 'n' :: cs = c :: ds := form.symm.trans written
      cases same
      exact absurd digit (by decide)
    · have same : 'n' :: cs = '-' :: digits := form.symm.trans written
      cases same
  | string s => simp [chars_string, stringChars] at form
  | array items => cases items <;> simp [chars_array_nil, chars_array_cons] at form
  | object members =>
    obtain ⟨rest, braced⟩ := chars_object members
    simp [braced] at form

theorem reads_option {α : Type} {decoder : Decoder α} {budget : Budget} {j : Json} {x : α}
    (reads : Reads decoder budget j x) (notNull : j ≠ .null) :
    Reads (Decoder.option decoder) budget j (some x) := by
  intro cur rest ends next
  obtain ⟨c, cs, form, dark, -⟩ := chars_head j
  have first : cur.rest = .char c :: (cs.map .char ++ rest) := by simpa [form] using next
  have other : c ≠ 'n' := by
    rintro rfl
    exact chars_ne_null notNull cs form
  simp only [Decoder.option, Cursor.blanks_eq first dark, first]
  split
  · simp_all
  · exact (reads cur rest ends next).bind fun _ left => yields_ok left

/-- A text that is a written tree is decoded as what the tree is read as. -/
theorem decodeString_text {α : Type} {decoder : Decoder α} {j : Json} {x : α}
    (reads : Reads decoder ⟨j.chars.length + 1, maxLevels⟩ j x) :
    decodeString decoder j.text = .ok x := by
  have text : Symbol.ofString j.text = j.chars.map .char := by
    simp [Symbol.ofString, Json.text]
  obtain ⟨cur, read, left⟩ := reads (.start (j.chars.map .char)) [] ends_nil (by simp [Cursor.start])
  have bounded : (j.chars.map Symbol.char).length = j.chars.length := List.length_map _
  simp only [decodeString, decode, text, bounded, read, bind, Except.bind,
    Cursor.blanks_eq_of_end left, left, List.isEmpty_nil, if_true]
  rfl

end VmAdmission.Json
