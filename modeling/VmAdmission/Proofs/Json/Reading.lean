import VmAdmission.Json.Decoder

namespace VmAdmission

theorem bind_ok {ε α β : Type} {value : Except ε α} {next : α → Except ε β} {result : β}
    (passed : value >>= next = .ok result) :
    ∃ found, value = .ok found ∧ next found = .ok result := by
  cases value with
  | error => cases passed
  | ok found => exact ⟨found, rfl, passed⟩

namespace Json

/-- The step succeeds and leaves the symbols. -/
def Leaves (outcome : Except Error Cursor) (rest : List Symbol) : Prop :=
  ∃ cur, outcome = .ok cur ∧ cur.rest = rest

/-- The reader succeeds with the value and leaves the symbols. -/
def Yields {α : Type} (outcome : Except Error (α × Cursor)) (x : α) (rest : List Symbol) : Prop :=
  ∃ cur, outcome = .ok (x, cur) ∧ cur.rest = rest

theorem Yields.bind {α β : Type} {outcome : Except Error (α × Cursor)} {x : α} {y : β}
    {middle rest : List Symbol} {next : α × Cursor → Except Error (β × Cursor)}
    (first : Yields outcome x middle)
    (second : ∀ cur, cur.rest = middle → Yields (next (x, cur)) y rest) :
    Yields (outcome >>= next) y rest := by
  obtain ⟨cur, rfl, left⟩ := first
  exact second cur left

theorem Leaves.bind {β : Type} {outcome : Except Error Cursor} {y : β} {middle rest : List Symbol}
    {next : Cursor → Except Error (β × Cursor)} (first : Leaves outcome middle)
    (second : ∀ cur, cur.rest = middle → Yields (next cur) y rest) :
    Yields (outcome >>= next) y rest := by
  obtain ⟨cur, rfl, left⟩ := first
  exact second cur left

theorem Leaves.andThen {outcome : Except Error Cursor} {middle rest : List Symbol}
    {next : Cursor → Except Error Cursor} (first : Leaves outcome middle)
    (second : ∀ cur, cur.rest = middle → Leaves (next cur) rest) :
    Leaves (outcome >>= next) rest := by
  obtain ⟨cur, rfl, left⟩ := first
  exact second cur left

theorem yields_ok {α : Type} {x : α} {cur : Cursor} {rest : List Symbol} (left : cur.rest = rest) :
    Yields (.ok (x, cur)) x rest :=
  ⟨cur, rfl, left⟩

theorem leaves_ok {cur : Cursor} {rest : List Symbol} (left : cur.rest = rest) :
    Leaves (.ok cur) rest :=
  ⟨cur, rfl, left⟩

/-- What may come after a value inside a container, or nothing after the outermost one. A number
that is followed so does not go on. -/
def Ends (rest : List Symbol) : Prop :=
  ∀ s ∈ rest.head?, s = .char ',' ∨ s = .char ']' ∨ s = .char '}'

theorem ends_nil : Ends [] := by simp [Ends]

theorem ends_comma (rest : List Symbol) : Ends (.char ',' :: rest) := by simp [Ends]

theorem ends_bracket (rest : List Symbol) : Ends (.char ']' :: rest) := by simp [Ends]

theorem ends_brace (rest : List Symbol) : Ends (.char '}' :: rest) := by simp [Ends]

namespace Cursor

@[simp]
theorem past_rest (cur : Cursor) (s : Symbol) (rest : List Symbol) :
    (cur.past s rest).rest = rest := by
  unfold past
  split <;> rfl

theorem skip_rest {cur : Cursor} {s : Symbol} {rest : List Symbol} (next : cur.rest = s :: rest) :
    cur.skip.rest = rest := by
  simp [skip, next]

/-- One of the four characters that JSON allows between tokens. -/
def IsJsonBlank (c : Char) : Prop :=
  c = ' ' ∨ c = '\t' ∨ c = '\r' ∨ c = '\n'

instance (c : Char) : Decidable (IsJsonBlank c) := by
  unfold IsJsonBlank
  infer_instance

theorem blanks_eq {cur : Cursor} {c : Char} {rest : List Symbol}
    (next : cur.rest = .char c :: rest) (dark : ¬ IsJsonBlank c) : cur.blanks = cur := by
  obtain ⟨symbols, line, column⟩ := cur
  obtain rfl : symbols = .char c :: rest := next
  unfold blanks skipBlanksFrom
  split <;> simp_all [IsJsonBlank]

theorem blanks_eq_of_end {cur : Cursor} (next : cur.rest = []) : cur.blanks = cur := by
  obtain ⟨symbols, line, column⟩ := cur
  obtain rfl : symbols = [] := next
  rfl

end Cursor

theorem word_leaves {cs : List Char} {cur : Cursor} {rest : List Symbol}
    (next : cur.rest = cs.map .char ++ rest) : Leaves (word cs cur) rest := by
  induction cs generalizing cur with
  | nil => exact leaves_ok next
  | cons c cs ih =>
    simp only [List.map_cons, List.cons_append] at next
    simp only [word, next, if_true]
    exact ih (Cursor.past_rest ..)

theorem colon_leaves {cur : Cursor} {rest : List Symbol} (next : cur.rest = .char ':' :: rest) :
    Leaves (colon cur) rest := by
  simp only [colon, Cursor.blanks_eq next (by decide), next]
  exact leaves_ok (Cursor.past_rest ..)

theorem hasMember_comma {cur : Cursor} {rest : List Symbol}
    (next : cur.rest = .char ',' :: .char '"' :: rest) :
    Yields (hasMember false cur) true (.char '"' :: rest) := by
  simp only [hasMember, Cursor.blanks_eq next (by decide), next]
  have after : (cur.past (.char ',') (.char '"' :: rest)).rest = .char '"' :: rest :=
    Cursor.past_rest ..
  simp only [Cursor.blanks_eq after (by decide), after]
  exact yields_ok after

theorem hasMember_first {cur : Cursor} {rest : List Symbol}
    (next : cur.rest = .char '"' :: rest) :
    Yields (hasMember true cur) true (.char '"' :: rest) := by
  simp only [hasMember, Cursor.blanks_eq next (by decide), next]
  exact yields_ok next

theorem hasMember_brace {first : Bool} {cur : Cursor} {rest : List Symbol}
    (next : cur.rest = .char '}' :: rest) :
    Yields (hasMember first cur) false (.char '}' :: rest) := by
  simp only [hasMember, Cursor.blanks_eq next (by decide), next]
  exact yields_ok next

end Json

end VmAdmission
