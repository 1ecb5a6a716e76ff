import VmAdmission.Proofs.Decimal.Shortest
import VmAdmission.Proofs.Json.Numerals

namespace VmAdmission

namespace Json

/-- An exponent as it is written, or nothing, and the power of ten that it stands for. -/
inductive IsPower : List Char → Int → Prop
  | none : IsPower [] 0
  | up {ds : List Char} (digits : IsDigits ds) :
      IsPower ('e' :: '+' :: ds) (Nat.ofDigitChars 10 ds 0)
  | down {ds : List Char} (digits : IsDigits ds) :
      IsPower ('e' :: '-' :: ds) (-(Nat.ofDigitChars 10 ds 0 : Int))

/-- The parts of a number without a sign: its digits before the point, which fit a significand, those
behind it, if there are any, and its exponent. -/
structure Parts where
  whole : List Char
  fraction : List Char
  exponent : List Char
  power : Int
  isWhole : IsWhole whole
  fits : Nat.ofDigitChars 10 whole 0 ≤ maxSignificand
  digits : ∀ c ∈ fraction, c.isDigit
  isPower : IsPower exponent power

namespace Parts

/-- The digits behind the point with the point. -/
def pointed (parts : Parts) : List Char :=
  if parts.fraction = [] then [] else '.' :: parts.fraction

def chars (parts : Parts) : List Char :=
  parts.whole ++ (parts.pointed ++ parts.exponent)

/-- The number of all digits, without the point. -/
def significand (parts : Parts) : Nat :=
  Nat.ofDigitChars 10 (parts.whole ++ parts.fraction) 0

/-- The number that the parts stand for. -/
def value (parts : Parts) : ℚ :=
  parts.significand * 10 ^ (parts.power - parts.fraction.length)

theorem isFraction (parts : Parts) : IsFraction parts.pointed := by
  unfold pointed
  split
  · exact .inl rfl
  · exact .inr ⟨_, rfl, ‹_›, parts.digits⟩

theorem isExponent (parts : Parts) : IsExponent parts.exponent := by
  obtain ⟨_, _, exponent, power, _, _, _, isPower⟩ := parts
  cases isPower with
  | none => exact .inl rfl
  | up digits => exact .inr ⟨'e', ['+'], _, rfl, .inl rfl, .inr (.inl rfl), digits⟩
  | down digits => exact .inr ⟨'e', ['-'], _, rfl, .inl rfl, .inr (.inr rfl), digits⟩

theorem isUnsigned (parts : Parts) : IsUnsigned parts.chars :=
  ⟨_, _, _, rfl, parts.isWhole, parts.isFraction, parts.isExponent⟩

end Parts

theorem ofDigitChars_lt {ds : List Char} (digits : ∀ c ∈ ds, c.isDigit) (n : Nat) :
    Nat.ofDigitChars 10 ds n < (n + 1) * 10 ^ ds.length := by
  induction ds generalizing n with
  | nil => simp
  | cons c cs ih =>
    have digit := Char.isDigit_iff_toNat.mp (digits c (by simp))
    have value : n * 10 + (c.toNat - 48) + 1 ≤ (n + 1) * 10 := by
      simp at digit
      omega
    calc Nat.ofDigitChars 10 (c :: cs) n
        < (n * 10 + (c.toNat - 48) + 1) * 10 ^ cs.length := by
          rw [ofDigitChars_step]
          exact ih (fun d member => digits d (by simp [member])) _
      _ ≤ (n + 1) * 10 * 10 ^ cs.length := Nat.mul_le_mul_right _ value
      _ = (n + 1) * 10 ^ (c :: cs).length := by
          rw [List.length_cons, Nat.pow_succ, Nat.mul_comm (10 ^ _), Nat.mul_assoc]

end Json

namespace Double

open Json

theorem isDigit_of_mem_zeros {n : Nat} {c : Char} (member : c ∈ List.replicate n '0') :
    c.isDigit := by
  rw [List.eq_of_mem_replicate member]
  decide

/-- What a decimal is written in: all its digits, and zeros as long as they are few. -/
structure Decimal.Written (d : Decimal) (parts : Parts) : Prop where
  chars : parts.chars = d.chars
  value : parts.value = d.value
  significand : parts.significand ≤ max d.digits (tenTo 17)
  power : parts.power = 0 ∨ (10 : ℚ) ^ parts.power ≤ d.value

/-- Digits that begin with another one than zero may stand before the point. -/
theorem isWhole_take {ds more : List Char} {n : Nat} (digits : IsDigits ds)
    (head : ds.head? ≠ some '0') (others : ∀ c ∈ more, c.isDigit) :
    IsWhole (ds.take (n + 1) ++ more) := by
  obtain ⟨c, cs, rfl⟩ := List.exists_cons_of_ne_nil digits.1
  refine ⟨⟨by simp, fun d member => ?_⟩, fun zero => absurd zero head⟩
  rcases List.mem_append.mp member with taken | other
  · exact digits.2 d (List.mem_of_mem_take taken)
  · exact others d other

section

variable {d : Decimal}

theorem Decimal.lt_ten_pow (d : Decimal) : d.digits < 10 ^ (Nat.toDigits 10 d.digits).length := by
  have below := ofDigitChars_lt (isDigits_toDigits d.digits).2 0
  rwa [Nat.ofDigitChars_ten_toDigits, Nat.zero_add, Nat.one_mul] at below

theorem Decimal.ten_pow_le (positive : d.digits ≠ 0) :
    10 ^ ((Nat.toDigits 10 d.digits).length - 1) ≤ d.digits := by
  have some_ : 0 < (Nat.toDigits 10 d.digits).length := Nat.length_toDigits_pos
  by_cases one : (Nat.toDigits 10 d.digits).length = 1
  · rw [one]
    exact Nat.pos_of_ne_zero positive
  · by_contra small
    have shorter := (Nat.length_toDigits_le_iff (by decide) (by omega)).mpr (not_le.mp small)
    omega

/-- The power of ten of the first digit. -/
def Decimal.first (d : Decimal) : Int :=
  d.exponent + (Nat.toDigits 10 d.digits).length - 1

/-- With zeros behind the digits. -/
theorem Decimal.exists_parts_zeros (positive : d.digits ≠ 0) (low : -5 ≤ d.first)
    (high : d.first ≤ 15) (whole : 0 ≤ d.exponent) : ∃ parts, d.Written parts := by
  have digits := isDigits_toDigits d.digits
  have head := head?_toDigits_ne_zero positive
  have below := d.lt_ten_pow
  have same : Nat.ofDigitChars 10 (Nat.toDigits 10 d.digits) 0 = d.digits :=
    Nat.ofDigitChars_ten_toDigits
  have form : d.chars = Nat.toDigits 10 d.digits ++ List.replicate d.exponent.toNat '0' ++
      ['.', '0'] := by
    unfold first at low high
    simp only [chars, if_pos (And.intro low high), ge_iff_le, if_pos whole]
  unfold first at high
  generalize Nat.toDigits 10 d.digits = ds at *
  generalize zeros : d.exponent.toNat = k at form
  have few : 10 ^ k * d.digits < 10 ^ 16 :=
    calc 10 ^ k * d.digits < 10 ^ k * 10 ^ ds.length :=
          Nat.mul_lt_mul_of_pos_left below (Nat.pow_pos (by decide))
      _ = 10 ^ (k + ds.length) := (Nat.pow_add ..).symm
      _ ≤ 10 ^ 16 := Nat.pow_le_pow_right (by decide) (by omega)
  have number : Nat.ofDigitChars 10 (ds ++ List.replicate k '0') 0 = 10 ^ k * d.digits := by
    rw [Nat.ofDigitChars_append, Nat.ofDigitChars_replicate_zero, same]
  have all : Nat.ofDigitChars 10 (ds ++ List.replicate k '0' ++ ['0']) 0 =
      10 ^ k * d.digits * 10 := by
    rw [Nat.ofDigitChars_append, number, ofDigitChars_step]
    rfl
  have isWhole : IsWhole (ds ++ List.replicate k '0') := by
    have taken := isWhole_take (n := ds.length) digits head
      fun c => isDigit_of_mem_zeros (n := k) (c := c)
    rwa [List.take_of_length_le (Nat.le_succ _)] at taken
  refine ⟨⟨_, ['0'], [], 0, isWhole, ?_, by simp, .none⟩, ?_, ?_, ?_, .inl rfl⟩
  · rw [number, maxSignificand]
    omega
  · simp [Parts.chars, Parts.pointed, form]
  · have exponent : d.exponent = k := by omega
    simp only [Parts.value, Parts.significand, all, value, exponent, zpow_natCast]
    push_cast
    norm_num
    ring
  · have top : tenTo 17 = 10 ^ 17 := rfl
    simp only [Parts.significand, all, top]
    omega

/-- With the point among the digits. -/
theorem Decimal.exists_parts_inside (positive : d.digits ≠ 0) (low : 0 ≤ d.first)
    (high : d.first ≤ 15) (fraction : d.exponent < 0) : ∃ parts, d.Written parts := by
  have digits := isDigits_toDigits d.digits
  have head := head?_toDigits_ne_zero positive
  have same : Nat.ofDigitChars 10 (Nat.toDigits 10 d.digits) 0 = d.digits :=
    Nat.ofDigitChars_ten_toDigits
  have form : d.chars = (Nat.toDigits 10 d.digits).take (d.first.toNat + 1) ++
      '.' :: (Nat.toDigits 10 d.digits).drop (d.first.toNat + 1) := by
    have range : -5 ≤ d.first ∧ d.first ≤ 15 := ⟨by omega, high⟩
    unfold first at low range ⊢
    simp only [chars, if_pos range, ge_iff_le, if_neg (not_le.mpr fraction), if_pos low]
  have length : ((Nat.toDigits 10 d.digits).length : Int) = d.first + 1 - d.exponent := by
    unfold first
    ring
  generalize Nat.toDigits 10 d.digits = ds at *
  generalize first : d.first = place at *
  obtain ⟨n, rfl⟩ := Int.eq_ofNat_of_zero_le low
  rw [Int.toNat_natCast] at form
  have isWhole : IsWhole (ds.take (n + 1)) := by
    have taken : IsWhole (ds.take (n + 1) ++ []) := isWhole_take digits head nofun
    rwa [List.append_nil] at taken
  have few : Nat.ofDigitChars 10 (ds.take (n + 1)) 0 < 10 ^ 16 := by
    refine Nat.lt_of_lt_of_le (ofDigitChars_lt isWhole.1.2 0) ?_
    rw [Nat.zero_add, Nat.one_mul]
    refine Nat.pow_le_pow_right (by decide) (Nat.le_trans (List.length_take_le _ _) ?_)
    omega
  have behind : ds.drop (n + 1) ≠ [] := by
    rw [ne_eq, List.drop_eq_nil_iff]
    omega
  refine ⟨⟨_, ds.drop (n + 1), [], 0, isWhole, ?_, fun c member =>
    digits.2 c (List.mem_of_mem_drop member), .none⟩, ?_, ?_, ?_, .inl rfl⟩
  · rw [maxSignificand]
    omega
  · simp [Parts.chars, Parts.pointed, form, behind]
  · have exponent : (0 : Int) - ((ds.drop (n + 1)).length : Nat) = d.exponent := by
      rw [List.length_drop]
      omega
    simp only [Parts.value, Parts.significand, List.take_append_drop, same, value, exponent]
  · simp only [Parts.significand, List.take_append_drop, same]
    exact le_max_left ..

/-- With zeros before the digits. -/
theorem Decimal.exists_parts_behind (low : -5 ≤ d.first) (high : d.first < 0)
    (fraction : d.exponent < 0) : ∃ parts, d.Written parts := by
  have digits := isDigits_toDigits d.digits
  have same : Nat.ofDigitChars 10 (Nat.toDigits 10 d.digits) 0 = d.digits :=
    Nat.ofDigitChars_ten_toDigits
  have form : d.chars = '0' :: '.' :: List.replicate (-d.first - 1).toNat '0' ++
      Nat.toDigits 10 d.digits := by
    have range : -5 ≤ d.first ∧ d.first ≤ 15 := ⟨low, by omega⟩
    unfold first at range high ⊢
    simp only [chars, if_pos range, ge_iff_le, if_neg (not_le.mpr fraction),
      if_neg (not_le.mpr high)]
  have length : ((Nat.toDigits 10 d.digits).length : Int) = d.first + 1 - d.exponent := by
    unfold first
    ring
  generalize Nat.toDigits 10 d.digits = ds at *
  generalize zeros : (-d.first - 1).toNat = k at form
  have all : Nat.ofDigitChars 10 (['0'] ++ (List.replicate k '0' ++ ds)) 0 = d.digits := by
    rw [Nat.ofDigitChars_append, Nat.ofDigitChars_append, ofDigitChars_step, Nat.ofDigitChars_nil,
      Nat.ofDigitChars_replicate_zero]
    exact same
  have isWhole : IsWhole ['0'] := ⟨⟨by simp, by simp⟩, by simp⟩
  refine ⟨⟨['0'], List.replicate k '0' ++ ds, [], 0, isWhole, by decide, fun c member => ?_, .none⟩,
    ?_, ?_, ?_, .inl rfl⟩
  · rcases List.mem_append.mp member with zero | digit
    · exact isDigit_of_mem_zeros zero
    · exact digits.2 c digit
  · simp [Parts.chars, Parts.pointed, form, digits.1]
  · have exponent : (0 : Int) - ((List.replicate k '0' ++ ds).length : Nat) = d.exponent := by
      rw [List.length_append, List.length_replicate]
      omega
    simp only [Parts.value, Parts.significand, all, value, exponent]
  · simp only [Parts.significand, all]
    exact le_max_left ..

/-- With an exponent. -/
theorem Decimal.exists_parts_power (positive : d.digits ≠ 0) (far : ¬ (-5 ≤ d.first ∧ d.first ≤ 15)) :
    ∃ parts, d.Written parts := by
  have digits := isDigits_toDigits d.digits
  have head := head?_toDigits_ne_zero positive
  have least := ten_pow_le positive
  have same : Nat.ofDigitChars 10 (Nat.toDigits 10 d.digits) 0 = d.digits :=
    Nat.ofDigitChars_ten_toDigits
  have form : d.chars = (Nat.toDigits 10 d.digits).take 1 ++
      ((if ((Nat.toDigits 10 d.digits).drop 1).isEmpty then []
        else '.' :: (Nat.toDigits 10 d.digits).drop 1) ++
      'e' :: (if d.first < 0 then '-' else '+') :: Nat.toDigits 10 d.first.natAbs) := by
    unfold first at far ⊢
    simp only [chars, if_neg far, List.append_assoc]
  have length : ((Nat.toDigits 10 d.digits).length : Int) = d.first + 1 - d.exponent := by
    unfold first
    ring
  have some_ : 0 < (Nat.toDigits 10 d.digits).length := Nat.length_toDigits_pos
  generalize Nat.toDigits 10 d.digits = ds at *
  have isWhole : IsWhole (ds.take 1) := by
    have taken : IsWhole (ds.take 1 ++ []) := isWhole_take digits head nofun
    rwa [List.append_nil] at taken
  have few : Nat.ofDigitChars 10 (ds.take 1) 0 < 10 ^ 1 := by
    refine Nat.lt_of_lt_of_le (ofDigitChars_lt isWhole.1.2 0) ?_
    rw [Nat.zero_add, Nat.one_mul]
    exact Nat.pow_le_pow_right (by decide) (List.length_take_le _ _)
  have power : IsPower ('e' :: (if d.first < 0 then '-' else '+') :: Nat.toDigits 10 d.first.natAbs)
      d.first := by
    have number : Nat.ofDigitChars 10 (Nat.toDigits 10 d.first.natAbs) 0 = d.first.natAbs :=
      Nat.ofDigitChars_ten_toDigits
    have digits := isDigits_toDigits d.first.natAbs
    by_cases negative : d.first < 0
    · have down := IsPower.down digits
      rw [number, Int.ofNat_natAbs_of_nonpos negative.le, neg_neg] at down
      rwa [if_pos negative]
    · have up := IsPower.up digits
      rw [number, Int.natAbs_of_nonneg (not_lt.mp negative)] at up
      rwa [if_neg negative]
  have reached : (10 : ℚ) ^ d.first ≤ d.value := by
    have split : d.first = ((ds.length - 1 : Nat) : Int) + d.exponent := by omega
    rw [split, zpow_add₀ (by norm_num), zpow_natCast, value]
    refine mul_le_mul_of_nonneg_right ?_ (by positivity)
    exact_mod_cast least
  refine ⟨⟨_, ds.drop 1, _, d.first, isWhole, ?_, fun c member =>
    digits.2 c (List.mem_of_mem_drop member), power⟩, ?_, ?_, ?_, .inr reached⟩
  · rw [maxSignificand]
    omega
  · simp [Parts.chars, Parts.pointed, form]
  · have exponent : d.first - ((ds.drop 1).length : Nat) = d.exponent := by
      rw [List.length_drop]
      omega
    simp only [Parts.value, Parts.significand, List.take_append_drop, same, value, exponent]
  · simp only [Parts.significand, List.take_append_drop, same]
    exact le_max_left ..

/-- Digits of a decimal that is not zero make a number wherever the point or the exponent goes. -/
theorem Decimal.exists_parts (positive : d.digits ≠ 0) : ∃ parts, d.Written parts := by
  by_cases near : -5 ≤ d.first ∧ d.first ≤ 15
  · obtain ⟨low, high⟩ := near
    by_cases whole : 0 ≤ d.exponent
    · exact exists_parts_zeros positive low high whole
    · by_cases inside : 0 ≤ d.first
      · exact exists_parts_inside positive inside high (not_le.mp whole)
      · exact exists_parts_behind low (not_le.mp inside) (not_le.mp whole)
  · exact exists_parts_power positive near

end

/-- The written form of a double in parts: those of zero, or of the decimal that is found. -/
theorem exists_parts (x : Double) : ∃ parts : Parts,
    x.chars = (if x.negative then ['-'] else []) ++ parts.chars ∧
      (parts.significand = 0 ∧ parts.power = 0 ∨ x.shortest.Written parts) := by
  by_cases none : x.isZero
  · refine ⟨⟨['0'], ['0'], [], 0, ⟨⟨by simp, by simp⟩, by simp⟩, by decide, by simp, .none⟩, ?_,
      .inl ⟨by decide, rfl⟩⟩
    simp only [chars, if_pos none]
    rfl
  · obtain ⟨parts, written⟩ :=
      Decimal.exists_parts (shortest_digits_ne_zero (x := x) (by simpa [isZero] using none))
    refine ⟨parts, ?_, .inr written⟩
    simp only [chars, if_neg none, written.chars]

theorem isNumeral_chars (x : Double) : IsNumeral x.chars := by
  obtain ⟨parts, form, -⟩ := x.exists_parts
  refine ⟨_, _, form, ?_, parts.isUnsigned⟩
  split
  · exact .inr rfl
  · exact .inl rfl

end Double

end VmAdmission
