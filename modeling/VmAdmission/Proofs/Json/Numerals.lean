import VmAdmission.Proofs.Json.Reading
import VmAdmission.Proofs.Text.Ascii

namespace VmAdmission.Json

/-- One or more decimal digits. -/
def IsDigits (cs : List Char) : Prop :=
  cs ≠ [] ∧ ∀ c ∈ cs, c.isDigit

/-- The digits before the point: a zero only stands alone. -/
def IsWhole (cs : List Char) : Prop :=
  IsDigits cs ∧ (cs.head? = some '0' → cs = ['0'])

/-- The digits after the point, with the point, or nothing. -/
def IsFraction (cs : List Char) : Prop :=
  cs = [] ∨ ∃ ds, cs = '.' :: ds ∧ IsDigits ds

/-- The exponent with its mark, or nothing. -/
def IsExponent (cs : List Char) : Prop :=
  cs = [] ∨ ∃ mark sign ds, cs = mark :: (sign ++ ds) ∧ (mark = 'e' ∨ mark = 'E') ∧
    (sign = [] ∨ sign = ['+'] ∨ sign = ['-']) ∧ IsDigits ds

/-- A number of JSON without its sign. -/
def IsUnsigned (cs : List Char) : Prop :=
  ∃ whole fraction exponent, cs = whole ++ (fraction ++ exponent) ∧
    IsWhole whole ∧ IsFraction fraction ∧ IsExponent exponent

/-- A number of JSON. -/
def IsNumeral (cs : List Char) : Prop :=
  ∃ sign digits, cs = sign ++ digits ∧ (sign = [] ∨ sign = ['-']) ∧ IsUnsigned digits

/-- The next symbol, if there is one, is no digit. -/
def NoDigit (rest : List Symbol) : Prop :=
  ∀ s ∈ rest.head?, s.digit? = none

theorem noDigit_of_ends {rest : List Symbol} (ends : Ends rest) : NoDigit rest := by
  intro s next
  rcases ends s next with rfl | rfl | rfl <;> rfl

theorem noDigit_cons {c : Char} (rest : List Symbol) (other : Ascii.digit? c = none) :
    NoDigit (.char c :: rest) := by
  simpa [NoDigit, Symbol.digit?] using other

theorem digit?_of_isDigit {c : Char} (digit : c.isDigit) :
    (Symbol.char c).digit? = some (c.toNat - 48) := by
  rw [Symbol.digit?, Ascii.digit?_eq, if_pos digit]

theorem atDigit_of_noDigit {cur : Cursor} (stop : NoDigit cur.rest) : cur.atDigit = false := by
  unfold Cursor.atDigit
  cases next : cur.rest with
  | nil => rfl
  | cons s rest => simp [stop s (by simp [next])]

theorem atDigit_of_isDigits {cur : Cursor} {ds : List Char} {rest : List Symbol}
    (digits : IsDigits ds) (next : cur.rest = ds.map .char ++ rest) : cur.atDigit = true := by
  obtain ⟨c, cs, rfl⟩ := List.exists_cons_of_ne_nil digits.1
  simp only [List.map_cons, List.cons_append] at next
  simp [Cursor.atDigit, next, digit?_of_isDigit (digits.2 c (by simp))]

theorem skipDigits_eq {ds : List Char} {rest : List Symbol} {line column : Nat}
    (digits : ∀ c ∈ ds, c.isDigit) (stop : NoDigit rest) :
    (skipDigits (ds.map .char ++ rest) line column).rest = rest := by
  induction ds generalizing column with
  | nil =>
    cases rest with
    | nil => rfl
    | cons s rest => simp [skipDigits, stop s (by simp)]
  | cons c cs ih =>
    simp only [List.map_cons, List.cons_append, skipDigits, digit?_of_isDigit (digits c (by simp))]
    exact ih fun d member => digits d (by simp [member])

theorem atExponent_of_ends {cur : Cursor} (ends : Ends cur.rest) : cur.atExponent = false := by
  unfold Cursor.atExponent
  split
  · rename_i c rest next
    rcases ends (.char c) (by simp [next]) with h | h | h <;> cases h <;> rfl
  · rfl

theorem no_point_of_ends {rest : List Symbol} (ends : Ends rest) :
    rest.head? ≠ some (.char '.') := by
  intro point
  rcases ends _ point with h | h | h <;> cases h

theorem skipExponent_leaves {cur : Cursor} {mark : Char} {sign ds : List Char}
    {rest : List Symbol} (signed : sign = [] ∨ sign = ['+'] ∨ sign = ['-'])
    (digits : IsDigits ds) (stop : NoDigit rest)
    (next : cur.rest = .char mark :: ((sign ++ ds).map .char ++ rest)) :
    Leaves (skipExponent cur) rest := by
  have inside := Cursor.skip_rest next
  have close {cur : Cursor} (next : cur.rest = ds.map .char ++ rest) :
      Leaves (if cur.atDigit then .ok (skipDigits cur.rest cur.line cur.column)
        else .error (cur.failNext .invalidNumber)) rest := by
    simp only [atDigit_of_isDigits digits next, if_true, next]
    exact leaves_ok (skipDigits_eq digits.2 stop)
  unfold skipExponent
  rcases signed with rfl | rfl | rfl
  · obtain ⟨c, cs, rfl⟩ := List.exists_cons_of_ne_nil digits.1
    have digit := digits.2 c (by simp)
    have notPlus : c ≠ '+' := by rintro rfl; exact absurd digit (by decide)
    have notMinus : c ≠ '-' := by rintro rfl; exact absurd digit (by decide)
    simp only [List.nil_append] at inside
    simp only [List.map_cons, List.cons_append] at inside
    simp only [inside]
    split <;> simp_all
  · simp only [List.cons_append, List.nil_append, List.map_cons] at inside
    simp only [inside]
    exact close (Cursor.skip_rest inside)
  · simp only [List.cons_append, List.nil_append, List.map_cons] at inside
    simp only [inside]
    exact close (Cursor.skip_rest inside)

theorem noDigit_exponent {cs : List Char} {rest : List Symbol} (exponent : IsExponent cs)
    (ends : Ends rest) : NoDigit (cs.map .char ++ rest) := by
  rcases exponent with rfl | ⟨mark, sign, ds, rfl, rfl | rfl, -, -⟩
  · exact noDigit_of_ends ends
  · exact noDigit_cons _ (by decide)
  · exact noDigit_cons _ (by decide)

theorem noDigit_fraction {cs : List Char} {rest : List Symbol} (fraction : IsFraction cs)
    (stop : NoDigit rest) : NoDigit (cs.map .char ++ rest) := by
  rcases fraction with rfl | ⟨ds, rfl, -⟩
  · exact stop
  · exact noDigit_cons _ (by decide)

theorem skip_exponent_part {cs : List Char} {cur : Cursor} {rest : List Symbol}
    (exponent : IsExponent cs) (ends : Ends rest) (next : cur.rest = cs.map .char ++ rest) :
    Leaves (if cur.atExponent then skipExponent cur else .ok cur) rest := by
  rcases exponent with rfl | ⟨mark, sign, ds, rfl, marked, signed, digits⟩
  · simp only [List.map_nil, List.nil_append] at next
    simp only [atExponent_of_ends (next ▸ ends), Bool.false_eq_true, if_false]
    exact leaves_ok next
  · simp only [List.map_cons, List.cons_append] at next
    have there : cur.atExponent = true := by simpa [Cursor.atExponent, next] using marked
    simp only [there, if_true]
    exact skipExponent_leaves signed digits (noDigit_of_ends ends) next

theorem no_leading_zero {c : Char} {cs : List Char} {rest : List Symbol} {cur : Cursor}
    (whole : IsWhole (c :: cs)) (stop : NoDigit rest) :
    ¬ (c.toNat - 48 = 0 ∧ (cur.past (.char c) (cs.map .char ++ rest)).atDigit) := by
  rintro ⟨zero, further⟩
  have low := (Char.isDigit_iff_toNat.mp (whole.1.2 c (by simp))).1
  have isZero : c = '0' := by
    rw [← Char.ofNat_toNat c, show c.toNat = 48 by simp at low; omega]
  obtain rfl : cs = [] := by simpa [isZero] using whole.2 (by simp [isZero])
  rw [atDigit_of_noDigit (by simpa using stop)] at further
  exact absurd further (by decide)

/-- A number that may stand there is skipped, whatever it is, if its sign is behind the cursor. -/
theorem skipNumber_leaves {cs : List Char} {cur : Cursor} {rest : List Symbol}
    (number : IsUnsigned cs) (ends : Ends rest) (next : cur.rest = cs.map .char ++ rest) :
    Leaves (skipNumber cur) rest := by
  obtain ⟨whole, fraction, exponent, rfl, ⟨⟨nonempty, digits⟩, alone⟩, isFraction, isExponent⟩ :=
    number
  obtain ⟨c, cs, rfl⟩ := List.exists_cons_of_ne_nil nonempty
  have afterFraction := noDigit_exponent isExponent ends
  have afterWhole := noDigit_fraction isFraction afterFraction
  simp only [List.map_append, List.map_cons, List.cons_append, List.append_assoc] at next
  have digitsLeft (d : Char) (member : d ∈ cs) : d.isDigit := digits d (by simp [member])
  simp only [skipNumber, next, digit?_of_isDigit (digits c (by simp)),
    no_leading_zero ⟨⟨nonempty, digits⟩, alone⟩ afterWhole, if_false, Cursor.past_rest]
  generalize at_ : skipDigits _ _ _ = cur'
  have left : cur'.rest = fraction.map .char ++ (exponent.map .char ++ rest) := by
    rw [← at_]
    exact skipDigits_eq digitsLeft afterWhole
  rcases isFraction with rfl | ⟨ds, rfl, fractionDigits⟩
  · simp only [List.map_nil, List.nil_append] at left
    have noPoint : cur'.rest.head? ≠ some (.char '.') := by
      rw [left]
      rcases isExponent with rfl | ⟨mark, sign, ds, rfl, rfl | rfl, -, -⟩
      · intro point
        rcases ends _ (by simpa using point) with h | h | h <;> cases h
      · simp
      · simp
    simp only [noPoint, if_false]
    exact skip_exponent_part isExponent ends left
  · simp only [List.map_cons, List.cons_append] at left
    have point : cur'.rest.head? = some (.char '.') := by simp [left]
    have inside := Cursor.skip_rest left
    simp only [point, if_true, atDigit_of_isDigits fractionDigits inside, not_true, if_false,
      inside]
    generalize at_ : skipDigits _ _ _ = cur''
    refine skip_exponent_part isExponent ends ?_
    rw [← at_]
    exact skipDigits_eq fractionDigits.2 afterFraction

theorem isDigits_toDigits (n : Nat) : IsDigits (Nat.toDigits 10 n) :=
  ⟨Nat.toDigits_ne_nil, fun _ member =>
    Nat.isDigit_of_mem_toDigits (by decide) (by decide) member⟩

theorem head?_toDigits_ne_zero {n : Nat} (positive : n ≠ 0) :
    (Nat.toDigits 10 n).head? ≠ some '0' := by
  induction n using Nat.strongRecOn with
  | ind n ih =>
    rw [Nat.toDigits_eq_if (by decide)]
    split
    · rename_i small
      have : ∀ n < 10, n ≠ 0 → n.digitChar ≠ '0' := by decide
      simpa using this n small positive
    · have first := ih (n / 10) (by omega) (by omega)
      obtain ⟨c, cs, form⟩ :=
        List.exists_cons_of_ne_nil (Nat.toDigits_ne_nil (n := n / 10) (b := 10))
      simpa [form] using first

theorem isWhole_toDigits (n : Nat) : IsWhole (Nat.toDigits 10 n) := by
  refine ⟨isDigits_toDigits n, fun zero => ?_⟩
  by_cases positive : n = 0
  · rw [positive, Nat.toDigits_zero]
  · exact absurd zero (head?_toDigits_ne_zero positive)

theorem isUnsigned_toDigits (n : Nat) : IsUnsigned (Nat.toDigits 10 n) :=
  ⟨_, [], [], (List.append_nil _).symm, isWhole_toDigits n, .inl rfl, .inl rfl⟩

/-- A number begins with a digit. -/
theorem IsUnsigned.head {cs : List Char} (number : IsUnsigned cs) :
    ∃ d ds, cs = d :: ds ∧ d.isDigit := by
  obtain ⟨whole, fraction, exponent, rfl, ⟨⟨nonempty, digits⟩, -⟩, -, -⟩ := number
  obtain ⟨d, ds, rfl⟩ := List.exists_cons_of_ne_nil nonempty
  exact ⟨d, _, rfl, digits d (by simp)⟩

theorem isNumeral_intChars (n : Int) : IsNumeral (intChars n) := by
  have digits := isUnsigned_toDigits n.natAbs
  unfold intChars
  split
  · exact ⟨['-'], _, rfl, .inr rfl, digits⟩
  · exact ⟨[], _, rfl, .inl rfl, digits⟩

/-- Digits whose number fits a significand are all taken. -/
theorem wholeDigits_eq {ds : List Char} {rest : List Symbol} {n : Nat} (line column : Nat)
    (digits : ∀ c ∈ ds, c.isDigit) (stop : NoDigit rest)
    (fits : Nat.ofDigitChars 10 ds n ≤ maxSignificand) :
    ∃ after, after.rest = rest ∧ wholeDigits (ds.map .char ++ rest) line column n 0 =
      ((Nat.ofDigitChars 10 ds n, 0), after) := by
  induction ds generalizing column n with
  | nil =>
    cases rest with
    | nil => exact ⟨_, rfl, by simp [wholeDigits]; rfl⟩
    | cons s rest => exact ⟨⟨s :: rest, line, column⟩, rfl, by simp [wholeDigits, stop s (by simp)]⟩
  | cons c cs ih =>
    rw [ofDigitChars_step] at fits ⊢
    have small := Nat.le_trans (le_ofDigitChars cs _) fits
    simp only [List.map_cons, List.cons_append, wholeDigits,
      digit?_of_isDigit (digits c (by simp))]
    obtain ⟨after, left, taken⟩ := ih (column + 1) (fun d member => digits d (by simp [member])) fits
    refine ⟨after, left, ?_⟩
    rw [if_pos ⟨trivial, small⟩]
    exact taken

/-- Digits before a point that fit a significand are taken, and what follows decides how it goes
on. -/
theorem numberBody_whole {ds : List Char} {cur : Cursor} {rest : List Symbol} (negative : Bool)
    (whole : IsWhole ds) (fits : Nat.ofDigitChars 10 ds 0 ≤ maxSignificand) (stop : NoDigit rest)
    (next : cur.rest = ds.map .char ++ rest) :
    ∃ after, after.rest = rest ∧ numberBody negative cur =
      if rest.head? = some (.char '.') then decimalPart negative (Nat.ofDigitChars 10 ds 0) 0 after
      else if after.atExponent then exponentPart negative (Nat.ofDigitChars 10 ds 0) 0 after
      else wholeNumber negative (Nat.ofDigitChars 10 ds 0) after := by
  obtain ⟨c, cs, rfl⟩ := List.exists_cons_of_ne_nil whole.1.1
  rw [ofDigitChars_step, Nat.zero_mul, Nat.zero_add] at fits ⊢
  simp only [List.map_cons, List.cons_append] at next
  have digits (d : Char) (member : d ∈ cs) : d.isDigit := whole.1.2 d (by simp [member])
  obtain ⟨after, left, taken⟩ := wholeDigits_eq (cur.past (.char c) (cs.map .char ++ rest)).line
    (cur.past (.char c) (cs.map .char ++ rest)).column digits stop fits
  refine ⟨after, left, ?_⟩
  simp only [numberBody, next, digit?_of_isDigit (whole.1.2 c (by simp)),
    no_leading_zero whole stop, if_false, Cursor.past_rest, taken, left, if_true]
  rfl

/-- The written form of a natural number is read as its significand. -/
theorem numberBody_toDigits {n : Nat} {cur : Cursor} {rest : List Symbol} (negative : Bool)
    (fits : n ≤ maxSignificand) (ends : Ends rest)
    (next : cur.rest = (Nat.toDigits 10 n).map .char ++ rest) :
    ∃ after, after.rest = rest ∧ numberBody negative cur = wholeNumber negative n after := by
  have value : Nat.ofDigitChars 10 (Nat.toDigits 10 n) 0 = n := Nat.ofDigitChars_ten_toDigits
  obtain ⟨after, left, read⟩ := numberBody_whole negative (isWhole_toDigits n)
    (value.symm ▸ fits) (noDigit_of_ends ends) next
  refine ⟨after, left, ?_⟩
  rw [read, if_neg (no_point_of_ends ends), atExponent_of_ends (left ▸ ends), if_neg Bool.false_ne_true, value]

theorem numberBody_negative {n : WireInt} {cur : Cursor} {rest : List Symbol}
    (negative : n.val < 0) (ends : Ends rest)
    (next : cur.rest = (Nat.toDigits 10 n.val.natAbs).map .char ++ rest) :
    Yields (numberBody true cur) (.integer n) rest := by
  obtain ⟨val, low, high⟩ := n
  have fits : val.natAbs ≤ maxSignificand := by
    unfold maxSignificand
    simp only at negative
    omega
  obtain ⟨after, left, read⟩ := numberBody_toDigits true fits ends next
  have inRange : 0 < val.natAbs ∧ val.natAbs ≤ 0x8000000000000000 := by
    simp only at negative
    omega
  have same : -(val.natAbs : Int) = val := by
    simp only at negative
    omega
  refine ⟨after, ?_, left⟩
  simp only [read, wholeNumber, if_true, inRange, and_self, dite_true, same]

theorem numberBody_nonneg {n : WireInt} {cur : Cursor} {rest : List Symbol}
    (nonneg : ¬ n.val < 0) (ends : Ends rest)
    (next : cur.rest = (Nat.toDigits 10 n.val.natAbs).map .char ++ rest) :
    Yields (numberBody false cur) (.integer n) rest := by
  obtain ⟨val, low, high⟩ := n
  have fits : val.natAbs ≤ maxSignificand := by
    unfold maxSignificand
    simp only at nonneg
    omega
  obtain ⟨after, left, read⟩ := numberBody_toDigits false fits ends next
  have inRange : val.natAbs < 0x10000000000000000 := by
    simp only at nonneg
    omega
  have same : (val.natAbs : Int) = val := by
    simp only at nonneg
    omega
  refine ⟨after, ?_, left⟩
  simp only [read, wholeNumber, Bool.false_eq_true, if_false, inRange, dite_true, same]

theorem toDigits_head (n : Nat) :
    ∃ c cs, Nat.toDigits 10 n = c :: cs ∧ c.isDigit ∧ (Ascii.digit? c).isSome := by
  obtain ⟨nonempty, digits⟩ := isDigits_toDigits n
  obtain ⟨c, cs, form⟩ := List.exists_cons_of_ne_nil nonempty
  have digit := digits c (by simp [form])
  have value : Ascii.digit? c = some (c.toNat - 48) := digit?_of_isDigit digit
  exact ⟨c, cs, form, digit, by simp [value]⟩

theorem int64_yields {n : Int64} {budget : Budget} {cur : Cursor} {rest : List Symbol}
    (ends : Ends rest) (next : cur.rest = (intChars n.toInt).map .char ++ rest) :
    Yields (Decoder.int64 budget cur) n rest := by
  let wire : WireInt := ⟨n.toInt, n.le_toInt, Int.lt_trans n.toInt_lt (by decide)⟩
  have back : Decoder.toInt64 (.integer wire) = .ok n := by
    have small : wire.val < 0x8000000000000000 := n.toInt_lt
    simp only [Decoder.toInt64, small, if_true]
    exact congrArg Except.ok (Int64.ofInt_toInt n)
  by_cases negative : n.toInt < 0
  · simp only [intChars, negative, if_true, List.map_cons, List.cons_append] at next
    simp only [Decoder.int64, Cursor.blanks_eq next (by decide), next, if_true]
    refine (numberBody_negative (n := wire) negative ends (Cursor.skip_rest next)).bind
      fun cur left => ?_
    simp only [back]
    exact yields_ok left
  · simp only [intChars, negative, if_false] at next
    have read := numberBody_nonneg (n := wire) negative ends next
    obtain ⟨c, cs, form, digit, value⟩ := toDigits_head n.toInt.natAbs
    simp only [form, List.map_cons, List.cons_append] at next
    have notMinus : c ≠ '-' := by rintro rfl; exact absurd digit (by decide)
    have dark : ¬ Cursor.IsJsonBlank c := by
      rintro (rfl | rfl | rfl | rfl) <;> exact absurd digit (by decide)
    simp only [Decoder.int64, Cursor.blanks_eq next dark, next, notMinus, if_false, value, if_true]
    refine read.bind fun cur left => ?_
    simp only [back]
    exact yields_ok left

end VmAdmission.Json
