import VmAdmission.Proofs.Json.Doubles
import VmAdmission.Proofs.Json.Strings
import VmAdmission.Proofs.Json.Written

namespace VmAdmission.Json

theorem isNumeral_numberChars (n : Number) : IsNumeral (numberChars n) := by
  cases n with
  | integer n => exact isNumeral_intChars n.val
  | double x => exact Double.isNumeral_chars x

/-- What is done after a whole value inside the open containers. -/
def goOn (symbols steps : Nat) (opened : List Container) (cur : Cursor) : Except Error Cursor :=
  match afterValue symbols opened cur with
  | .error e => .error e
  | .ok (none, cur) => .ok cur
  | .ok (some opened, cur) => skipFrom symbols steps opened cur

/-- From a place before a value inside some open containers the skipper comes to the end of a
value inside others, where the symbols are left. It may take a step for each character between. -/
def Passes (symbols length : Nat) (inside opened : List Container) (cur : Cursor)
    (rest : List Symbol) : Prop :=
  ∃ used ≤ length, ∃ after : Cursor, after.rest = rest ∧
    ∀ steps, skipFrom symbols (steps + used) inside cur = goOn symbols steps opened after

/-- The same from the end of a value inside some open containers. -/
def Finishes (symbols length : Nat) (inside opened : List Container) (cur : Cursor)
    (rest : List Symbol) : Prop :=
  ∃ used ≤ length, ∃ after : Cursor, after.rest = rest ∧
    ∀ steps, goOn symbols (steps + used) inside cur = goOn symbols steps opened after

theorem Passes.andThen {symbols n m : Nat} {inside opened outer : List Container} {cur : Cursor}
    {middle rest : List Symbol} (first : Passes symbols n inside opened cur middle)
    (second : ∀ cur, cur.rest = middle → Finishes symbols m opened outer cur rest) :
    Passes symbols (n + m) inside outer cur rest := by
  obtain ⟨usedFirst, fewFirst, between, left, run⟩ := first
  obtain ⟨usedSecond, fewSecond, after, left', run'⟩ := second between left
  refine ⟨usedSecond + usedFirst, by omega, after, left', fun steps => ?_⟩
  rw [← Nat.add_assoc, run, run']

theorem Passes.of_step {symbols n : Nat} {inside inner opened : List Container}
    {cur start : Cursor} {rest : List Symbol} (value : Passes symbols n inner opened start rest)
    (step : ∀ steps, skipFrom symbols (steps + 1) inside cur = skipFrom symbols steps inner start) :
    Passes symbols (n + 1) inside opened cur rest := by
  obtain ⟨used, few, after, left, run⟩ := value
  refine ⟨used + 1, by omega, after, left, fun steps => ?_⟩
  rw [← Nat.add_assoc, step, run]

theorem Passes.mono {symbols n m : Nat} {inside opened : List Container} {cur : Cursor}
    {rest : List Symbol} (value : Passes symbols n inside opened cur rest) (le : n ≤ m) :
    Passes symbols m inside opened cur rest := by
  obtain ⟨used, few, after⟩ := value
  exact ⟨used, Nat.le_trans few le, after⟩

theorem Finishes.of_passes {symbols n m : Nat} {inside opened : List Container}
    {cur start : Cursor} {rest : List Symbol} (value : Passes symbols n inside opened start rest)
    (further : ∀ steps, goOn symbols steps inside cur = skipFrom symbols steps inside start)
    (le : n ≤ m) : Finishes symbols m inside opened cur rest := by
  obtain ⟨used, few, after, left, run⟩ := value
  exact ⟨used, Nat.le_trans few le, after, left, fun steps => by rw [further, run]⟩

def Container.opening : Container → Char
  | .array => '['
  | .object => '{'

def Container.closing : Container → Char
  | .array => ']'
  | .object => '}'

/-- Leaving containers is bounded by their number, so that more symbols make no difference. -/
theorem leaveContainers_congr {opened : List Container} {n m : Nat} (enough : opened.length < n)
    (enough' : opened.length < m) (cur : Cursor) :
    leaveContainers n opened cur = leaveContainers m opened cur := by
  induction opened generalizing n m cur with
  | nil =>
    obtain ⟨n, rfl⟩ := Nat.exists_eq_add_one.mpr enough
    obtain ⟨m, rfl⟩ := Nat.exists_eq_add_one.mpr enough'
    rfl
  | cons container outer ih =>
    obtain ⟨n, rfl⟩ : ∃ k, n = k + 1 := Nat.exists_eq_add_one.mpr (by omega)
    obtain ⟨m, rfl⟩ : ∃ k, m = k + 1 := Nat.exists_eq_add_one.mpr (by omega)
    simp only [List.length_cons, Nat.add_lt_add_iff_right] at enough enough'
    have outward := ih enough enough'
    cases container <;> simp only [leaveContainers, outward]

theorem goOn_congr {symbols steps : Nat} {opened : List Container} {container : Container}
    {cur after : Cursor} (room : opened.length + 1 < symbols)
    (left : leaveContainers symbols (container :: opened) cur =
      leaveContainers (symbols - 1) opened after) :
    goOn symbols steps (container :: opened) cur = goOn symbols steps opened after := by
  unfold goOn afterValue
  rw [left, leaveContainers_congr (by omega : opened.length < symbols - 1)
    (by omega : opened.length < symbols)]

/-- A bracket that closes the innermost container ends a whole value of the one around it. -/
theorem finishes_close {symbols : Nat} {opened : List Container} {cur : Cursor}
    {rest : List Symbol} (container : Container) (room : opened.length + 1 < symbols)
    (next : cur.rest = .char container.closing :: rest) :
    Finishes symbols 0 (container :: opened) opened cur rest := by
  obtain ⟨symbols, rfl⟩ : ∃ k, symbols = k + 1 := Nat.exists_eq_add_one.mpr (by omega)
  refine ⟨0, Nat.le_refl _, cur.past (.char container.closing) rest, Cursor.past_rest ..,
    fun _ => goOn_congr room ?_⟩
  cases container with
  | array =>
    have notComma : Symbol.char ']' ≠ .char ',' := by decide
    simp only [Container.closing] at next ⊢
    simp only [leaveContainers, Cursor.blanks_eq next (by decide), next, notComma, if_false,
      if_true, Nat.add_sub_cancel]
  | object =>
    have notComma : Symbol.char '}' ≠ .char ',' := by decide
    simp only [Container.closing] at next ⊢
    simp only [leaveContainers, Cursor.blanks_eq next (by decide), next, notComma, if_false,
      if_true, Nat.add_sub_cancel]

theorem goOn_comma_array {symbols : Nat} {opened : List Container} {cur : Cursor}
    {rest : List Symbol} (room : 0 < symbols) (next : cur.rest = .char ',' :: rest) :
    ∃ after : Cursor, after.rest = rest ∧ ∀ steps,
      goOn symbols steps (.array :: opened) cur =
        skipFrom symbols steps (.array :: opened) after := by
  obtain ⟨symbols, rfl⟩ := Nat.exists_eq_add_one.mpr room
  have further : afterValue (symbols + 1) (.array :: opened) cur =
      .ok (some (.array :: opened), cur.past (.char ',') rest) := by
    simp only [afterValue, leaveContainers, Cursor.blanks_eq next (by decide), next, if_true]
    rfl
  refine ⟨cur.past (.char ',') rest, Cursor.past_rest .., fun steps => ?_⟩
  simp only [goOn, further]

theorem skipKey_leaves {symbols : Nat} {opened : List Container} {key : String} {cur : Cursor}
    {rest : List Symbol} (room : (stringChars key).length ≤ symbols)
    (next : cur.rest = (stringChars key ++ [':']).map .char ++ rest) :
    Leaves (skipKey symbols (.object :: opened) cur) rest := by
  have longer := length_le_stringChars key
  simp only [stringChars, List.cons_append, List.append_assoc, List.map_cons, List.map_append,
    List.nil_append, List.map_nil] at next
  simp only [skipKey, Cursor.blanks_eq next (by decide), next, if_true]
  have body : Leaves (skipString symbols (cur.past (.char '"')
      ((key.toList.flatMap escape).map .char ++ .char '"' :: .char ':' :: rest)))
      (.char ':' :: rest) :=
    skipString_leaves (by omega) (Cursor.past_rest ..)
  exact body.andThen fun _ left => colon_leaves left

theorem goOn_comma_object {symbols : Nat} {opened : List Container} {key : String} {cur : Cursor}
    {rest : List Symbol} (room : (stringChars key).length ≤ symbols)
    (next : cur.rest = .char ',' :: ((stringChars key ++ [':']).map .char ++ rest)) :
    ∃ after : Cursor, after.rest = rest ∧ ∀ steps,
      goOn symbols steps (.object :: opened) cur =
        skipFrom symbols steps (.object :: opened) after := by
  have longer := length_le_stringChars key
  obtain ⟨after, run, left⟩ : Leaves (skipKey symbols (.object :: opened) (cur.past (.char ',') _))
      rest := skipKey_leaves room (Cursor.past_rest ..)
  obtain ⟨symbols, rfl⟩ : ∃ k, symbols = k + 1 := Nat.exists_eq_add_one.mpr (by omega)
  have further : afterValue (symbols + 1) (.object :: opened) cur =
      .ok (some (.object :: opened), after) := by
    simp only [afterValue, leaveContainers, Cursor.blanks_eq next (by decide), next, if_true,
      bind, Except.bind, List.isEmpty_cons, Bool.false_eq_true, if_false, run]
    rfl
  refine ⟨after, left, fun steps => ?_⟩
  simp only [goOn, further]

theorem passes_scalar {symbols length : Nat} {opened : List Container} {c : Char} {cur : Cursor}
    {behind rest : List Symbol} (next : cur.rest = .char c :: behind)
    (dark : ¬ Cursor.IsJsonBlank c) (notArray : c ≠ '[') (notObject : c ≠ '{')
    (some : 1 ≤ length) (skipped : Leaves (skipScalar symbols c cur) rest) :
    Passes symbols length opened opened cur rest := by
  obtain ⟨after, run, left⟩ := skipped
  refine ⟨1, some, after, left, fun steps => ?_⟩
  simp only [skipFrom, skipStep, Cursor.blanks_eq next dark, next, notArray, notObject, if_false,
    run, goOn]
  rfl

theorem numeral_head {cs : List Char} (number : IsUnsigned cs) :
    ∃ c ds, cs = c :: ds ∧ c.isDigit ∧ (Ascii.digit? c).isSome := by
  obtain ⟨whole, fraction, exponent, rfl, ⟨⟨nonempty, digits⟩, -⟩, -, -⟩ := number
  obtain ⟨c, cs, rfl⟩ := List.exists_cons_of_ne_nil nonempty
  have digit := digits c (by simp)
  have value : Ascii.digit? c = some (c.toNat - 48) := digit?_of_isDigit digit
  exact ⟨c, cs ++ (fraction ++ exponent), rfl, digit, by simp [value]⟩

theorem passes_number {symbols : Nat} {opened : List Container} {cs : List Char} {cur : Cursor}
    {rest : List Symbol} (number : IsNumeral cs) (ends : Ends rest)
    (next : cur.rest = cs.map .char ++ rest) :
    Passes symbols cs.length opened opened cur rest := by
  obtain ⟨sign, digits, rfl, rfl | rfl, unsigned⟩ := number
  · obtain ⟨c, ds, rfl, digit, value⟩ := numeral_head unsigned
    have skipped := skipNumber_leaves unsigned ends next
    simp only [List.nil_append, List.map_cons, List.cons_append] at next
    have other (d : Char) (noDigit : ¬ d.isDigit) : c ≠ d := by
      rintro rfl
      exact noDigit digit
    refine passes_scalar next ?_ (other _ (by decide)) (other _ (by decide)) (by simp) ?_
    · rintro (blank | blank | blank | blank) <;> exact other _ (by decide) blank
    · simpa only [skipScalar, other 'n' (by decide), other 't' (by decide), other 'f' (by decide),
        other '"' (by decide), other '-' (by decide), if_false, value, if_true] using skipped
  · simp only [List.cons_append, List.nil_append, List.map_cons] at next
    refine passes_scalar next (by decide) (by decide) (by decide) (by simp) ?_
    exact skipNumber_leaves unsigned ends (Cursor.skip_rest next)

/-- The first character of a written tree is neither a blank nor a closing bracket. -/
theorem chars_head (j : Json) :
    ∃ c cs, j.chars = c :: cs ∧ ¬ Cursor.IsJsonBlank c ∧ c ≠ ']' := by
  cases j with
  | null => exact ⟨_, _, chars_null, by decide, by decide⟩
  | bool b =>
    cases b
    · exact ⟨_, _, chars_false, by decide, by decide⟩
    · exact ⟨_, _, chars_true, by decide, by decide⟩
  | number n =>
    rw [chars_number]
    obtain ⟨sign, digits, form, rfl | rfl, unsigned⟩ := isNumeral_numberChars n
    · obtain ⟨c, cs, rfl, digit, -⟩ := numeral_head unsigned
      refine ⟨c, cs, form, ?_, ?_⟩
      · rintro (rfl | rfl | rfl | rfl) <;> exact absurd digit (by decide)
      · rintro rfl
        exact absurd digit (by decide)
    · exact ⟨'-', digits, form, by decide, by decide⟩
  | string s => exact ⟨_, _, chars_string s, by decide, by decide⟩
  | array items =>
    cases items
    · exact ⟨_, _, chars_array_nil, by decide, by decide⟩
    · exact ⟨_, _, chars_array_cons .., by decide, by decide⟩
  | object members =>
    cases members
    · exact ⟨_, _, chars_object_nil, by decide, by decide⟩
    · exact ⟨_, _, chars_object_cons .., by decide, by decide⟩

theorem passes_empty {symbols : Nat} {opened : List Container} {cur : Cursor}
    {rest : List Symbol} (container : Container)
    (next : cur.rest = .char container.opening :: .char container.closing :: rest) :
    Passes symbols 2 opened opened cur rest := by
  have inside := Cursor.skip_rest next
  refine ⟨1, by decide, cur.skip.skip, Cursor.skip_rest inside, fun steps => ?_⟩
  have step : skipStep symbols opened cur = afterValue symbols opened cur.skip.skip := by
    cases container with
    | array =>
      simp only [Container.opening, Container.closing] at next inside
      simp [skipStep, Cursor.blanks_eq next (by decide), next, openContainer,
        Cursor.blanks_eq inside (by decide), inside, Container.closes]
    | object =>
      simp only [Container.opening, Container.closing] at next inside
      simp [skipStep, Cursor.blanks_eq next (by decide), next, openContainer,
        Cursor.blanks_eq inside (by decide), inside, Container.closes]
  simp only [skipFrom, step]
  rfl

theorem skipFrom_array {symbols : Nat} {opened : List Container} {c : Char} {cur : Cursor}
    {behind : List Symbol} (dark : ¬ Cursor.IsJsonBlank c) (other : c ≠ ']')
    (next : cur.rest = .char '[' :: .char c :: behind) (steps : Nat) :
    skipFrom symbols (steps + 1) opened cur =
      skipFrom symbols steps (.array :: opened) cur.skip := by
  have inside := Cursor.skip_rest next
  have step : skipStep symbols opened cur = .ok (some (.array :: opened), cur.skip) := by
    simp only [skipStep, Cursor.blanks_eq next (by decide), next, Char.isValue, ↓reduceIte,
      openContainer, Cursor.blanks_eq inside dark, inside, List.isEmpty_cons, Bool.false_eq_true,
      Container.closes, List.head?_cons, Option.some.injEq, Symbol.char.injEq, other, decide_false,
      skipKey]
    rfl
  simp only [skipFrom, step]

theorem skipFrom_object {symbols : Nat} {opened : List Container} {key : String} {cur : Cursor}
    {rest : List Symbol} (room : (stringChars key).length ≤ symbols)
    (next : cur.rest = .char '{' :: ((stringChars key ++ [':']).map .char ++ rest)) :
    ∃ start : Cursor, start.rest = rest ∧ ∀ steps,
      skipFrom symbols (steps + 1) opened cur =
        skipFrom symbols steps (.object :: opened) start := by
  have inside := Cursor.skip_rest next
  obtain ⟨start, run, left⟩ : Leaves (skipKey symbols (.object :: opened) cur.skip) rest :=
    skipKey_leaves room inside
  have quote : cur.skip.rest = .char '"' :: ((key.toList.flatMap escape ++ ['"', ':']).map .char
      ++ rest) := by
    simp [inside, stringChars]
  have step : skipStep symbols opened cur = .ok (some (.object :: opened), start) := by
    simp only [skipStep, Cursor.blanks_eq next (by decide), next, Char.isValue, Char.reduceEq,
      ↓reduceIte, openContainer, Cursor.blanks_eq quote (by decide), quote, List.isEmpty_cons,
      Bool.false_eq_true, Container.closes, List.head?_cons, Option.some.injEq, Symbol.char.injEq,
      decide_false, run]
    rfl
  exact ⟨start, left, fun steps => by simp only [skipFrom, step]⟩

theorem ends_moreItems (items : List Json) (rest : List Symbol) :
    Ends ((moreItems items ++ [']']).map .char ++ rest) := by
  cases items with
  | nil => exact ends_bracket rest
  | cons item items => exact ends_comma _

theorem ends_moreMembers (members : List (String × Json)) (rest : List Symbol) :
    Ends ((moreMembers members ++ ['}']).map .char ++ rest) := by
  cases members with
  | nil => exact ends_brace rest
  | cons member members => exact ends_comma _

mutual

/-- A written tree is passed. -/
theorem passes_tree : (j : Json) → {symbols : Nat} → {opened : List Container} → {cur : Cursor} →
    {rest : List Symbol} → opened.length + j.chars.length < symbols → Ends rest →
    cur.rest = j.chars.map .char ++ rest → Passes symbols j.chars.length opened opened cur rest
  | .null, symbols, opened, cur, rest, room, ends, next => by
    rw [chars_null] at next ⊢
    exact passes_scalar next (by decide) (by decide) (by decide) (by simp)
      (word_leaves (Cursor.skip_rest next))
  | .bool true, symbols, opened, cur, rest, room, ends, next => by
    rw [chars_true] at next ⊢
    exact passes_scalar next (by decide) (by decide) (by decide) (by simp)
      (word_leaves (Cursor.skip_rest next))
  | .bool false, symbols, opened, cur, rest, room, ends, next => by
    rw [chars_false] at next ⊢
    exact passes_scalar next (by decide) (by decide) (by decide) (by simp)
      (word_leaves (Cursor.skip_rest next))
  | .number n, symbols, opened, cur, rest, room, ends, next => by
    rw [chars_number] at next ⊢
    exact passes_number (isNumeral_numberChars n) ends next
  | .string s, symbols, opened, cur, rest, room, ends, next => by
    have longer := length_le_stringChars s
    rw [chars_string] at next room ⊢
    have text : (stringChars s).map Symbol.char ++ rest =
        .char '"' :: ((s.toList.flatMap escape).map .char ++ .char '"' :: rest) := by
      simp [stringChars]
    rw [text] at next
    exact passes_scalar next (by decide) (by decide) (by decide) (by omega)
      (skipString_leaves (by omega) (Cursor.skip_rest next))
  | .array [], symbols, opened, cur, rest, room, ends, next => by
    rw [chars_array_nil] at next ⊢
    exact passes_empty .array next
  | .array (item :: items), symbols, opened, cur, rest, room, ends, next => by
    rw [chars_array_cons] at next room ⊢
    simp only [List.length_cons, List.length_append, List.length_nil] at room ⊢
    have next : cur.rest = .char '[' :: (item.chars.map .char ++
        ((moreItems items ++ [']']).map .char ++ rest)) := by simpa using next
    obtain ⟨c, cs, form, dark, other⟩ := chars_head item
    have value : Passes symbols item.chars.length (.array :: opened) (.array :: opened) cur.skip
        ((moreItems items ++ [']']).map .char ++ rest) :=
      passes_tree item (by simp only [List.length_cons]; omega) (ends_moreItems items rest)
        (Cursor.skip_rest next)
    have whole := value.andThen fun _ left => finishes_items items (by omega) left
    rw [form, List.map_cons, List.cons_append] at next
    exact (whole.of_step (skipFrom_array dark other next)).mono (by omega)
  | .object [], symbols, opened, cur, rest, room, ends, next => by
    rw [chars_object_nil] at next ⊢
    exact passes_empty .object next
  | .object ((key, value) :: members), symbols, opened, cur, rest, room, ends, next => by
    rw [chars_object_cons] at next room ⊢
    simp only [memberChars, List.length_cons, List.length_append, List.length_nil] at room ⊢
    have next : cur.rest = .char '{' :: ((stringChars key ++ [':']).map .char ++
        (value.chars.map .char ++ ((moreMembers members ++ ['}']).map .char ++ rest))) := by
      simpa [memberChars] using next
    obtain ⟨start, left, step⟩ :=
      skipFrom_object (by omega : (stringChars key).length ≤ symbols) next
    have inner : Passes symbols value.chars.length (.object :: opened) (.object :: opened) start
        ((moreMembers members ++ ['}']).map .char ++ rest) :=
      passes_tree value (by simp only [List.length_cons]; omega) (ends_moreMembers members rest) left
    have whole := inner.andThen fun _ left => finishes_members members (by omega) left
    exact (whole.of_step step).mono (by omega)

/-- The items after the first, up to the closing bracket, are passed. -/
theorem finishes_items : (items : List Json) → {symbols : Nat} → {opened : List Container} →
    {cur : Cursor} → {rest : List Symbol} →
    opened.length + 1 + (moreItems items).length < symbols →
    cur.rest = (moreItems items ++ [']']).map .char ++ rest →
    Finishes symbols (moreItems items).length (.array :: opened) opened cur rest
  | [], symbols, opened, cur, rest, room, next => finishes_close .array room next
  | item :: items, symbols, opened, cur, rest, room, next => by
    rw [moreItems_cons] at room next ⊢
    simp only [List.length_cons, List.length_append] at room ⊢
    have next : cur.rest = .char ',' :: (item.chars.map .char ++
        ((moreItems items ++ [']']).map .char ++ rest)) := by simpa using next
    obtain ⟨start, left, further⟩ := goOn_comma_array (by omega : 0 < symbols) next
    have value : Passes symbols item.chars.length (.array :: opened) (.array :: opened) start
        ((moreItems items ++ [']']).map .char ++ rest) :=
      passes_tree item (by simp only [List.length_cons]; omega) (ends_moreItems items rest) left
    have whole := value.andThen fun _ left => finishes_items items (by omega) left
    exact .of_passes whole further (by omega)

theorem finishes_members : (members : List (String × Json)) → {symbols : Nat} →
    {opened : List Container} → {cur : Cursor} → {rest : List Symbol} →
    opened.length + 1 + (moreMembers members).length < symbols →
    cur.rest = (moreMembers members ++ ['}']).map .char ++ rest →
    Finishes symbols (moreMembers members).length (.object :: opened) opened cur rest
  | [], symbols, opened, cur, rest, room, next => finishes_close .object room next
  | (key, value) :: members, symbols, opened, cur, rest, room, next => by
    rw [moreMembers_cons] at room next ⊢
    simp only [memberChars, List.length_cons, List.length_append] at room ⊢
    have next : cur.rest = .char ',' :: ((stringChars key ++ [':']).map .char ++
        (value.chars.map .char ++ ((moreMembers members ++ ['}']).map .char ++ rest))) := by
      simpa [memberChars] using next
    obtain ⟨start, left, further⟩ :=
      goOn_comma_object (by omega : (stringChars key).length ≤ symbols) next
    have inner : Passes symbols value.chars.length (.object :: opened) (.object :: opened) start
        ((moreMembers members ++ ['}']).map .char ++ rest) :=
      passes_tree value (by simp only [List.length_cons]; omega) (ends_moreMembers members rest) left
    have whole := inner.andThen fun _ left => finishes_members members (by omega) left
    exact .of_passes whole further (by omega)

end

theorem skipValue_leaves {j : Json} {budget : Budget} {cur : Cursor} {rest : List Symbol}
    (room : j.chars.length < budget.symbols) (ends : Ends rest)
    (next : cur.rest = j.chars.map .char ++ rest) : Leaves (skipValue budget cur) rest := by
  obtain ⟨used, few, after, left, run⟩ : Passes budget.symbols j.chars.length [] [] cur rest :=
    passes_tree j (by simpa using room) ends next
  obtain ⟨steps, total⟩ : ∃ steps, budget.symbols = steps + used :=
    Nat.exists_eq_add_of_le' (by omega)
  obtain ⟨symbols, positive⟩ := Nat.exists_eq_add_one.mpr (Nat.zero_lt_of_lt room)
  have skipped : skipValue budget cur = goOn budget.symbols steps [] after := by
    unfold skipValue
    rw [← run, ← total]
  rw [skipped, positive]
  exact leaves_ok left

end VmAdmission.Json
