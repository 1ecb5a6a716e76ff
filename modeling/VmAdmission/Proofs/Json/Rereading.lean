import VmAdmission.Proofs.Json.Doubles

namespace VmAdmission

namespace Json

section

variable {ds : List Char}

/-- Decimals that no longer count change nothing. -/
theorem decimals_skipped (digits : ∀ c ∈ ds, c.isDigit) {rest : List Symbol} (stop : NoDigit rest)
    (line column n places : Nat) : ∃ after, after.rest = rest ∧
      decimals (ds.map .char ++ rest) line column n places false = ((n, places), after) := by
  induction ds generalizing column with
  | nil =>
    cases rest with
    | nil => exact ⟨⟨[], line, column⟩, rfl, by simp [decimals]⟩
    | cons s rest => exact ⟨⟨s :: rest, line, column⟩, rfl, by simp [decimals, stop s (by simp)]⟩
  | cons c cs ih =>
    simp only [List.map_cons, List.cons_append, decimals, digit?_of_isDigit (digits c (by simp)),
      Bool.false_eq_true, false_and, if_false]
    exact ih (fun d member => digits d (by simp [member])) _

/-- The decimals that count make a significand that is cut off from all the digits. -/
theorem decimals_taken (digits : ∀ c ∈ ds, c.isDigit) {n : Nat} (fits : n ≤ maxSignificand) :
    ∃ significand taken, significand ≤ maxSignificand ∧ taken ≤ ds.length ∧
      significand * 10 ^ (ds.length - taken) ≤ Nat.ofDigitChars 10 ds n ∧
      ∀ (rest : List Symbol) (line column places : Nat), NoDigit rest → ∃ after,
        after.rest = rest ∧ decimals (ds.map .char ++ rest) line column n places true =
          ((significand, places + taken), after) := by
  induction ds generalizing n with
  | nil =>
    refine ⟨n, 0, fits, Nat.le_refl _, by simp, fun rest line column places stop =>
      ⟨⟨rest, line, column⟩, rfl, ?_⟩⟩
    cases rest with
    | nil => simp [decimals]
    | cons s rest => simp [decimals, stop s (by simp)]
  | cons c cs ih =>
    have further (d : Char) (member : d ∈ cs) : d.isDigit := digits d (by simp [member])
    simp only [List.map_cons, List.cons_append, decimals, digit?_of_isDigit (digits c (by simp))]
    by_cases counts : n * 10 + (c.toNat - 48) ≤ maxSignificand
    · obtain ⟨significand, taken, few, short, cut, read⟩ := ih further counts
      refine ⟨significand, taken + 1, few, Nat.succ_le_succ short, ?_,
        fun rest line column places stop => ?_⟩
      · rwa [List.length_cons, Nat.succ_sub_succ, ofDigitChars_step]
      · rw [if_pos ⟨trivial, counts⟩, ← Nat.add_assoc, Nat.add_right_comm]
        exact read rest line (column + 1) (places + 1) stop
    · refine ⟨n, 0, fits, Nat.zero_le _, ?_, fun rest line column places stop => ?_⟩
      · rw [Nat.sub_zero, Nat.ofDigitChars_eq_ofDigitChars_zero, Nat.mul_comm]
        exact Nat.le_add_right _ _
      · rw [if_neg fun both => counts both.2]
        exact decimals_skipped further stop line (column + 1) n places

/-- An exponent is read, or it is too large and the rest of its digits is left. -/
theorem exponentDigits_taken (digits : ∀ c ∈ ds, c.isDigit) {rest : List Symbol}
    (stop : NoDigit rest) (line column : Nat) {n : Nat} (fits : n ≤ maxExponent) :
    ∃ after : Cursor,
      (Nat.ofDigitChars 10 ds n ≤ maxExponent ∧ after.rest = rest ∧
        exponentDigits (ds.map .char ++ rest) line column n =
          (some (Nat.ofDigitChars 10 ds n), after)) ∨
      (maxExponent < Nat.ofDigitChars 10 ds n ∧
        (skipDigits after.rest after.line after.column).rest = rest ∧
        exponentDigits (ds.map .char ++ rest) line column n = (none, after)) := by
  induction ds generalizing column n with
  | nil =>
    refine ⟨⟨rest, line, column⟩, .inl ⟨fits, rfl, ?_⟩⟩
    cases rest with
    | nil => simp [exponentDigits]
    | cons s rest => simp [exponentDigits, stop s (by simp)]
  | cons c cs ih =>
    have further (d : Char) (member : d ∈ cs) : d.isDigit := digits d (by simp [member])
    simp only [List.map_cons, List.cons_append, exponentDigits,
      digit?_of_isDigit (digits c (by simp)), ofDigitChars_step]
    by_cases small : n * 10 + (c.toNat - 48) ≤ maxExponent
    · rw [if_pos small]
      exact ih further _ small
    · rw [if_neg small]
      refine ⟨_, .inr ⟨?_, skipDigits_eq further stop, rfl⟩⟩
      exact Nat.lt_of_lt_of_le (not_le.mp small) (le_ofDigitChars cs _)

end

section

variable {negative : Bool} {significand : Nat} {scale : Int}

theorem doubleAt_yields {y : Double} {cur : Cursor} {rest : List Symbol}
    (found : Double.ofDecimal? negative significand scale = some y) (next : cur.rest = rest) :
    Yields (doubleAt negative significand scale cur) (.double y) rest := by
  simp only [doubleAt, found]
  exact yields_ok next

/-- An exponent is read with its sign. A negative one may be too large; then the number is zero. -/
theorem exponentPart_yields {sign : Char} {ds : List Char} (digits : IsDigits ds)
    (signed : sign = '+' ∧ Nat.ofDigitChars 10 ds 0 ≤ maxExponent ∨ sign = '-')
    (found : ∃ y, Double.ofDecimal? negative significand
      (if sign = '-' then scale - Nat.ofDigitChars 10 ds 0
        else scale + Nat.ofDigitChars 10 ds 0) = some y) :
    ∃ y, ∀ (cur : Cursor) (rest : List Symbol), Ends rest →
      cur.rest = .char 'e' :: .char sign :: (ds.map .char ++ rest) →
      Yields (exponentPart negative significand scale cur) (.double y) rest := by
  obtain ⟨y, found⟩ := found
  refine ⟨if Nat.ofDigitChars 10 ds 0 ≤ maxExponent then y else .zero negative,
    fun cur rest ends next => ?_⟩
  have inside := Cursor.skip_rest next
  have behind := Cursor.skip_rest inside
  have atDigit := atDigit_of_isDigits digits behind
  obtain ⟨d, more, form⟩ : ∃ d more, ds.map .char ++ rest = d :: more := by
    obtain ⟨c, cs, rfl⟩ := List.exists_cons_of_ne_nil digits.1
    exact ⟨_, _, rfl⟩
  obtain ⟨after, taken⟩ := exponentDigits_taken digits.2 (noDigit_of_ends ends)
    cur.skip.skip.line cur.skip.skip.column (Nat.zero_le _)
  rw [form] at behind taken
  rcases signed with ⟨rfl, small⟩ | rfl
  · obtain ⟨-, left, read⟩ := taken.resolve_right fun large => absurd small (not_le.mpr large.1)
    simp only [exponentPart, inside, behind, atDigit, not_true, if_false, read,
      Bool.false_eq_true, if_pos small]
    exact doubleAt_yields found left
  · simp only [exponentPart, inside, behind, atDigit, not_true, if_false]
    rcases taken with ⟨small, left, read⟩ | ⟨large, left, read⟩
    · simp only [read, if_true, if_pos small]
      exact doubleAt_yields found left
    · simp only [read, and_false, if_false, if_neg (not_le.mpr large)]
      exact yields_ok left

/-- There is no exponent, or one that is read. -/
theorem IsPower.read {exponent : List Char} {power : Int} (isPower : IsPower exponent power)
    (small : power ≤ maxExponent) :
    (exponent = [] ∧ power = 0) ∨
      (∃ more, exponent = 'e' :: more) ∧ ∀ negative significand scale,
        (∃ y, Double.ofDecimal? negative significand (scale + power) = some y) →
        ∃ y, ∀ (cur : Cursor) (rest : List Symbol), Ends rest →
          cur.rest = exponent.map .char ++ rest →
          Yields (exponentPart negative significand scale cur) (.double y) rest := by
  cases isPower with
  | none => exact .inl ⟨rfl, rfl⟩
  | up digits =>
    exact .inr ⟨⟨_, rfl⟩, fun _ _ _ found =>
      exponentPart_yields digits (.inl ⟨rfl, Int.ofNat_le.mp small⟩) found⟩
  | down digits =>
    exact .inr ⟨⟨_, rfl⟩, fun _ _ _ found => exponentPart_yields digits (.inr rfl) found⟩

theorem wholeNumber_yields (fits : significand ≤ maxSignificand)
    (found : ∃ y, Double.ofDecimal? negative significand 0 = some y) :
    ∃ n, ∀ (cur : Cursor) (rest : List Symbol), cur.rest = rest →
      Yields (wholeNumber negative significand cur) n rest := by
  obtain ⟨y, found⟩ := found
  have inRange : significand < 0x10000000000000000 := Nat.lt_succ_of_le fits
  cases negative with
  | true =>
    by_cases small : 0 < significand ∧ significand ≤ 0x8000000000000000
    · refine ⟨.integer ⟨-(significand : Int), by omega, by omega⟩, fun cur rest next => ?_⟩
      simp only [wholeNumber, if_true, small, and_self, dite_true]
      exact yields_ok next
    · refine ⟨.double y, fun cur rest next => ?_⟩
      simp only [wholeNumber, if_true, small, dite_false]
      exact doubleAt_yields found next
  | false =>
    refine ⟨.integer ⟨significand, by omega, by omega⟩, fun cur rest next => ?_⟩
    simp only [wholeNumber, Bool.false_eq_true, if_false, inRange, dite_true]
    exact yields_ok next

/-- What counts of the digits of a number can be read as a double. -/
def Parts.Readable (parts : Parts) (negative : Bool) : Prop :=
  ∀ (significand : Nat) (exponent : Int), significand ≤ maxSignificand →
    significand ≤ parts.significand → (significand * 10 ^ exponent : ℚ) ≤ parts.value →
    ∃ y, Double.ofDecimal? negative significand exponent = some y

theorem decimalPart_yields {parts : Parts} (readable : parts.Readable negative)
    (small : parts.power ≤ maxExponent) (some_ : parts.fraction ≠ []) :
    ∃ n, ∀ (cur : Cursor) (rest : List Symbol), Ends rest →
      cur.rest = .char '.' :: (parts.fraction.map .char ++ (parts.exponent.map .char ++ rest)) →
      Yields (decimalPart negative (Nat.ofDigitChars 10 parts.whole 0) 0 cur) n rest := by
  obtain ⟨significand, taken, few, short, cut, read⟩ := decimals_taken parts.digits parts.fits
  rw [← Nat.ofDigitChars_append] at cut
  change _ ≤ parts.significand at cut
  have found : ∃ y, Double.ofDecimal? negative significand
      ((0 : Nat) - (0 + taken : Nat) + parts.power) = some y := by
    refine readable significand _ few ?_ ?_
    · exact Nat.le_trans (Nat.le_mul_of_pos_right _ (Nat.pow_pos (by decide))) cut
    · have split : ((0 : Nat) - (0 + taken : Nat) + parts.power : Int) =
          (parts.fraction.length - taken : Nat) + (parts.power - parts.fraction.length) := by omega
      rw [split, zpow_add₀ (by norm_num), zpow_natCast, ← mul_assoc, Parts.value]
      refine mul_le_mul_of_nonneg_right ?_ (by positivity)
      exact_mod_cast cut
  have point {cur : Cursor} {rest : List Symbol} (ends : Ends rest)
      (next : cur.rest = .char '.' ::
        (parts.fraction.map .char ++ (parts.exponent.map .char ++ rest))) :
      ∃ after, after.rest = parts.exponent.map .char ++ rest ∧
        decimalPart negative (Nat.ofDigitChars 10 parts.whole 0) 0 cur =
          if after.atExponent then
            exponentPart negative significand ((0 : Nat) - (0 + taken : Nat)) after
          else doubleAt negative significand ((0 : Nat) - (0 + taken : Nat)) after := by
    have inside := Cursor.skip_rest next
    obtain ⟨after, left, read⟩ := read (parts.exponent.map .char ++ rest) cur.skip.line
      cur.skip.column 0 (noDigit_exponent parts.isExponent ends)
    refine ⟨after, left, ?_⟩
    simp only [decimalPart, inside, atDigit_of_isDigits ⟨some_, parts.digits⟩ inside, not_true,
      if_false, read]
  obtain ⟨none, zero⟩ | ⟨⟨more, marked⟩, reads⟩ := parts.isPower.read small
  · rw [zero, add_zero] at found
    obtain ⟨y, found⟩ := found
    refine ⟨.double y, fun cur rest ends next => ?_⟩
    obtain ⟨after, left, same⟩ := point ends next
    rw [none] at left
    rw [same, atExponent_of_ends (left ▸ ends : Ends after.rest), if_neg Bool.false_ne_true]
    exact doubleAt_yields found left
  · obtain ⟨y, reads⟩ := reads _ _ _ found
    refine ⟨.double y, fun cur rest ends next => ?_⟩
    obtain ⟨after, left, same⟩ := point ends next
    have there : after.atExponent = true := by simp [Cursor.atExponent, left, marked]
    rw [same, if_pos there]
    exact reads after rest ends left

/-- A number whose parts can be read is read, wherever it stands. -/
theorem numberBody_yields {parts : Parts} (readable : parts.Readable negative)
    (small : parts.power ≤ maxExponent) :
    ∃ n, ∀ (cur : Cursor) (rest : List Symbol), Ends rest →
      cur.rest = parts.chars.map .char ++ rest → Yields (numberBody negative cur) n rest := by
  have whole {cur : Cursor} {rest : List Symbol} (ends : Ends rest)
      (next : cur.rest = parts.chars.map .char ++ rest) := by
    rw [Parts.chars, List.map_append, List.map_append, List.append_assoc, List.append_assoc] at next
    exact numberBody_whole negative parts.isWhole parts.fits
      (noDigit_fraction parts.isFraction (noDigit_exponent parts.isExponent ends)) next
  by_cases none : parts.fraction = []
  · have all : parts.significand = Nat.ofDigitChars 10 parts.whole 0 := by
      rw [Parts.significand, none, List.append_nil]
    have found := readable (Nat.ofDigitChars 10 parts.whole 0) parts.power parts.fits all.ge
      (by rw [Parts.value, none, all, List.length_nil, Int.natCast_zero, sub_zero])
    obtain ⟨empty, zero⟩ | ⟨⟨more, marked⟩, reads⟩ := parts.isPower.read small
    · obtain ⟨n, reads⟩ := wholeNumber_yields parts.fits (zero ▸ found)
      refine ⟨n, fun cur rest ends next => ?_⟩
      obtain ⟨after, left, same⟩ := whole ends next
      simp only [Parts.pointed, if_pos none, empty, List.map_nil, List.nil_append] at left same
      rw [same, if_neg (no_point_of_ends ends), atExponent_of_ends (left ▸ ends : Ends after.rest),
        if_neg Bool.false_ne_true]
      exact reads after rest left
    · obtain ⟨y, reads⟩ := reads negative (Nat.ofDigitChars 10 parts.whole 0) 0 (by rwa [zero_add])
      refine ⟨.double y, fun cur rest ends next => ?_⟩
      obtain ⟨after, left, same⟩ := whole ends next
      simp only [Parts.pointed, if_pos none, List.map_nil, List.nil_append] at left same
      have there : after.atExponent = true := by simp [Cursor.atExponent, left, marked]
      rw [same, if_neg (by simp [marked]), if_pos there]
      exact reads after rest ends left
  · obtain ⟨n, reads⟩ := decimalPart_yields readable small none
    refine ⟨n, fun cur rest ends next => ?_⟩
    obtain ⟨after, left, same⟩ := whole ends next
    simp only [Parts.pointed, if_neg none, List.map_cons, List.cons_append, List.head?_cons,
      if_true] at left same
    rw [same]
    exact reads after rest ends left

end

end Json

namespace Double

open Json

/-- Whatever is written for a double can be read. -/
theorem Decimal.Written.readable {x : Double} {parts : Parts} (written : x.shortest.Written parts)
    (negative : Bool) : parts.Readable negative := by
  intro significand exponent few taken small
  rw [written.value] at small
  exact shortest_ofDecimal? few (Nat.le_trans taken written.significand) small negative

/-- The exponent of what is written for a double is one that can be read. -/
theorem Decimal.Written.power_le {x : Double} {parts : Parts} (written : x.shortest.Written parts) :
    parts.power ≤ maxExponent := by
  rcases written.power with zero | reached
  · rw [zero]
    decide
  · have top := le_trans reached x.shortest_le_tenTo
    have power : parts.power ≤ 400 := (zpow_le_zpow_iff_right₀ (by norm_num)).mp top
    exact Int.le_trans power (by decide)

/-- The written form of a double is read as a number, and as the same one wherever it stands. -/
theorem numberBody_chars (x : Double) : ∃ unsigned n,
    x.chars = (if x.negative then ['-'] else []) ++ unsigned ∧ IsUnsigned unsigned ∧
      ∀ (cur : Cursor) (rest : List Symbol), Ends rest → cur.rest = unsigned.map .char ++ rest →
        Yields (numberBody x.negative cur) n rest := by
  obtain ⟨parts, form, ⟨none, zero⟩ | written⟩ := x.exists_parts
  · have readable : parts.Readable x.negative := by
      intro significand exponent few taken small
      obtain rfl : significand = 0 := Nat.le_zero.mp (none ▸ taken)
      refine bounded_below.exists_ofDecimal? few (by decide +kernel) (by decide +kernel) ?_ _
      rw [Nat.cast_zero, zero_mul]
      exact Nat.cast_nonneg _
    obtain ⟨n, reads⟩ := numberBody_yields readable (zero ▸ by decide)
    exact ⟨parts.chars, n, form, parts.isUnsigned, reads⟩
  · obtain ⟨n, reads⟩ := numberBody_yields (written.readable x.negative) written.power_le
    exact ⟨parts.chars, n, form, parts.isUnsigned, reads⟩

end Double

end VmAdmission
