import Mathlib.Algebra.Order.Field.Power
import Mathlib.Data.Rat.Cast.Order
import Mathlib.Tactic.FieldSimp
import Mathlib.Tactic.Linarith
import Mathlib.Tactic.NormNum
import Mathlib.Tactic.Positivity
import Mathlib.Tactic.Ring
import VmAdmission.Decimal.Double

namespace VmAdmission.Double

/-- The number without its sign. -/
def magnitude (x : Double) : ℚ :=
  x.mantissa * 2 ^ x.exponent

theorem magnitude_nonneg (x : Double) : 0 ≤ x.magnitude := by
  unfold magnitude
  positivity

/-- Half a step beyond the largest number, from where on nothing is nearest. -/
def overflow : ℚ :=
  (2 ^ 54 - 1) * 2 ^ (970 : Int)

/-- A power of either sign as a quotient of powers with natural exponents. -/
theorem pow_toNat_div (b : ℚ) (n : Int) : b ^ n.toNat / b ^ (-n).toNat = b ^ n := by
  obtain ⟨k, rfl | rfl⟩ := n.eq_nat_or_neg
  · simp
  · simp

theorem twoTo_div (n : Int) : (twoTo n : ℚ) / twoTo (-n) = 2 ^ n := by
  simpa [twoTo] using pow_toNat_div 2 n

theorem twoTo_cast_pos (n : Int) : (0 : ℚ) < twoTo n := by
  exact_mod_cast Nat.two_pow_pos _

theorem roundDiv_near (num : Nat) {den : Nat} (positive : 0 < den) :
    2 * num ≤ (2 * roundDiv num den + 1) * den ∧ 2 * roundDiv num den * den ≤ 2 * num + den := by
  have split : den * (num / den) + num % den = num := Nat.div_add_mod num den
  have small : num % den < den := Nat.mod_lt num positive
  unfold roundDiv
  generalize num / den = whole at *
  generalize num % den = rest at *
  subst split
  simp only
  split
  · rename_i up
    have half : den ≤ 2 * rest := by omega
    constructor <;> nlinarith
  · rename_i down
    have half : 2 * rest ≤ den := by omega
    constructor <;> nlinarith

theorem roundDiv_mono {num num' den : Nat} (positive : 0 < den) (le : num ≤ num') :
    roundDiv num den ≤ roundDiv num' den := by
  by_contra crossed
  obtain ⟨-, upper⟩ := roundDiv_near num positive
  obtain ⟨lower, -⟩ := roundDiv_near num' positive
  have same : num = num' := by nlinarith
  exact crossed (same ▸ Nat.le_refl _)

/-- A quotient lies between powers of two that the logarithms of its parts tell. -/
theorem log2_bounds {num den : Nat} (some_ : num ≠ 0) (positive : den ≠ 0) :
    (num / den : ℚ) < 2 ^ ((num.log2 : Int) - den.log2 + 1) ∧
      2 ^ ((num.log2 : Int) - den.log2 - 1) ≤ (num / den : ℚ) := by
  have power {a b : Nat} {n : Int} (same : n = a - b) : (2 : ℚ) ^ n = 2 ^ a / 2 ^ b := by
    rw [same, zpow_sub₀ two_ne_zero, zpow_natCast, zpow_natCast]
  have denPos : (0 : ℚ) < den := by exact_mod_cast Nat.pos_of_ne_zero positive
  have numLow : (2 : ℚ) ^ num.log2 ≤ num := by exact_mod_cast Nat.log2_self_le some_
  have numHigh : (num : ℚ) < 2 ^ (num.log2 + 1) := by exact_mod_cast Nat.lt_log2_self
  have denLow : (2 : ℚ) ^ den.log2 ≤ den := by exact_mod_cast Nat.log2_self_le positive
  have denHigh : (den : ℚ) < 2 ^ (den.log2 + 1) := by exact_mod_cast Nat.lt_log2_self
  constructor
  · rw [power (a := num.log2 + 1) (b := den.log2) (by omega)]
    calc (num / den : ℚ) < 2 ^ (num.log2 + 1) / den := by gcongr
      _ ≤ 2 ^ (num.log2 + 1) / 2 ^ den.log2 := by gcongr
  · rw [power (a := num.log2) (b := den.log2 + 1) (by omega)]
    calc (2 ^ num.log2 / 2 ^ (den.log2 + 1) : ℚ) ≤ 2 ^ num.log2 / den := by gcongr
      _ ≤ num / den := by gcongr

/-- Comparing cross products compares quotients. -/
theorem cross_le_iff {num den : Nat} (positive : den ≠ 0) (n : Int) (c : Nat) :
    den * twoTo n * c ≤ num * twoTo (-n) ↔ (c : ℚ) * 2 ^ n ≤ num / den := by
  have denPos : (0 : ℚ) < den := by exact_mod_cast Nat.pos_of_ne_zero positive
  rw [← twoTo_div, mul_div_assoc', div_le_div_iff₀ (twoTo_cast_pos _) denPos, ← Nat.cast_le (α := ℚ)]
  push_cast
  rw [mul_comm (c : ℚ), mul_comm _ (den : ℚ), mul_assoc]

/-- The exponent leaves room for the leading bit of the mantissa and for no more, unless it is the
least. -/
theorem exponentOf_bounds {num den : Nat} (some_ : num ≠ 0) (positive : den ≠ 0) :
    -1074 ≤ exponentOf num den ∧
      (num / den : ℚ) < 2 ^ 53 * 2 ^ exponentOf num den ∧
      (2 ^ 52 * 2 ^ exponentOf num den ≤ (num / den : ℚ) ∨ exponentOf num den = -1074) := by
  obtain ⟨above, below⟩ := log2_bounds some_ positive
  have shift (k : Nat) (n : Int) : (2 : ℚ) ^ k * 2 ^ n = 2 ^ (k + n) := by
    rw [zpow_add₀ two_ne_zero, zpow_natCast]
  let guess : Int := (num.log2 : Int) - den.log2 - 52
  obtain ⟨chosen, same, high, low⟩ : ∃ chosen, exponentOf num den = max (-1074) chosen ∧
      (num / den : ℚ) < 2 ^ 53 * 2 ^ chosen ∧ 2 ^ 52 * 2 ^ chosen ≤ (num / den : ℚ) := by
    by_cases fits : den * twoTo guess * 0x10000000000000 ≤ num * twoTo (-guess)
    · refine ⟨guess, by simp only [exponentOf, guess] at fits ⊢; rw [if_pos fits], ?_, ?_⟩
      · rwa [shift, show ((53 : Nat) : Int) + guess = num.log2 - den.log2 + 1 by simp [guess]; ring]
      · have reached := (cross_le_iff positive guess _).mp fits
        norm_num at reached ⊢
        exact reached
    · refine ⟨guess - 1, by simp only [exponentOf, guess] at fits ⊢; rw [if_neg fits], ?_, ?_⟩
      · have missed := not_le.mp (mt (cross_le_iff positive guess _).mpr fits)
        rw [shift, show ((53 : Nat) : Int) + (guess - 1) = ((52 : Nat) : Int) + guess by omega, ← shift]
        norm_num at missed ⊢
        exact missed
      · rwa [shift, show ((52 : Nat) : Int) + (guess - 1) = num.log2 - den.log2 - 1 by simp [guess]; ring]
  rw [same]
  refine ⟨le_max_left .., lt_of_lt_of_le high ?_, ?_⟩
  · gcongr
    · norm_num
    · exact le_max_right ..
  · rcases max_cases (-1074) chosen with ⟨least, -⟩ | ⟨least, -⟩
    · exact .inr least
    · exact .inl (least.symm ▸ low)

/-- The mantissa of a quotient before a carry. -/
def roundedAt (exponent : Int) (num den : Nat) : Nat :=
  roundDiv (num * twoTo (-exponent)) (den * twoTo exponent)

/-- The mantissa is nearest to the quotient in steps of the exponent. -/
theorem roundedAt_near (exponent : Int) (num : Nat) {den : Nat} (positive : den ≠ 0) :
    2 * (num / den : ℚ) ≤ (2 * roundedAt exponent num den + 1) * 2 ^ exponent ∧
      (2 * roundedAt exponent num den - 1) * 2 ^ exponent ≤ 2 * (num / den : ℚ) := by
  have denPos : (0 : ℚ) < den := by exact_mod_cast Nat.pos_of_ne_zero positive
  have up := twoTo_cast_pos exponent
  have down := twoTo_cast_pos (-exponent)
  obtain ⟨high, low⟩ := roundDiv_near (num * twoTo (-exponent))
    (Nat.mul_pos (Nat.pos_of_ne_zero positive) (Nat.two_pow_pos _) : 0 < den * twoTo exponent)
  rw [← roundedAt, ← Nat.cast_le (α := ℚ)] at high low
  push_cast at high low
  rw [← twoTo_div, mul_div_assoc', mul_div_assoc', mul_div_assoc', div_le_div_iff₀ denPos down,
    div_le_div_iff₀ down denPos]
  constructor
  · linarith [high]
  · linarith [low]

theorem ofRatio?_eq {num den : Nat} (negative : Bool) (some_ : num ≠ 0) :
    ofRatio? negative num den =
      let exponent := exponentOf num den
      let mantissa := roundedAt exponent num den
      let carried := mantissa = 0x20000000000000
      let mantissa' := if carried then 0x10000000000000 else mantissa
      let exponent' := if carried then exponent + 1 else exponent
      if h : InRange mantissa' exponent' then some ⟨negative, mantissa', exponent', h⟩ else none :=
  if_neg some_

/-- The mantissa has 53 bits, or one more that it carries. -/
theorem roundedAt_bounds {num den : Nat} (some_ : num ≠ 0) (positive : den ≠ 0) :
    roundedAt (exponentOf num den) num den ≤ 2 ^ 53 ∧
      (2 ^ 52 ≤ roundedAt (exponentOf num den) num den ∨ exponentOf num den = -1074) := by
  obtain ⟨-, above, below⟩ := exponentOf_bounds some_ positive
  obtain ⟨high, low⟩ := roundedAt_near (exponentOf num den) num positive
  generalize exponentOf num den = exponent at *
  generalize roundedAt exponent num den = mantissa at *
  have unit : (0 : ℚ) < 2 ^ exponent := by positivity
  constructor
  · have steps : (2 * mantissa - 1 : ℚ) < 2 * 2 ^ 53 := by
      refine lt_of_mul_lt_mul_right ?_ unit.le
      linarith
    have steps : 2 * mantissa < 2 * 2 ^ 53 + 1 := by exact_mod_cast sub_lt_iff_lt_add.mp steps
    omega
  · refine below.imp_left fun below => ?_
    have steps : (2 * 2 ^ 52 : ℚ) ≤ 2 * mantissa + 1 := by
      refine le_of_mul_le_mul_right ?_ unit
      linarith
    have steps : 2 * 2 ^ 52 ≤ 2 * mantissa + 1 := by exact_mod_cast steps
    omega

/-- Below half a step beyond the largest number, no mantissa at the highest exponent carries. -/
theorem exponentOf_le {num den : Nat} (some_ : num ≠ 0) (positive : den ≠ 0)
    (small : (num / den : ℚ) < overflow) :
    exponentOf num den < 971 ∨
      exponentOf num den = 971 ∧ roundedAt (exponentOf num den) num den < 2 ^ 53 := by
  obtain ⟨-, -, below⟩ := exponentOf_bounds some_ positive
  obtain ⟨-, low⟩ := roundedAt_near (exponentOf num den) num positive
  generalize exponentOf num den = exponent at *
  generalize roundedAt exponent num den = mantissa at *
  have unit : (0 : ℚ) < 2 ^ (970 : Int) := by positivity
  rw [overflow] at small
  rcases lt_trichotomy exponent 971 with lower | rfl | higher
  · exact .inl lower
  · refine .inr ⟨rfl, ?_⟩
    rw [show (971 : Int) = 970 + 1 from rfl, zpow_add_one₀ two_ne_zero] at low
    have steps : (2 * mantissa - 1 : ℚ) < 2 ^ 54 - 1 := by
      refine lt_of_mul_lt_mul_right ?_ unit.le
      generalize (2 : ℚ) ^ (970 : Int) = half at low small ⊢
      linarith only [low, small]
    have steps : (2 * mantissa : ℚ) < 2 ^ 54 := (sub_lt_sub_iff_right 1).mp steps
    have steps : 2 * mantissa < 2 ^ 54 := by exact_mod_cast steps
    omega
  · have reached : (2 ^ 52 * 2 ^ (972 : Int) : ℚ) ≤ num / den :=
      le_trans (mul_le_mul_of_nonneg_left (zpow_le_zpow_right₀ one_le_two higher) (by norm_num))
        (below.resolve_right (by omega))
    rw [show (972 : Int) = 970 + 2 from rfl, zpow_add₀ two_ne_zero] at reached
    generalize (2 : ℚ) ^ (970 : Int) = half at *
    norm_num at small reached
    linarith only [small, reached, unit]

/-- What is less than half a step beyond the largest number has a nearest number. -/
theorem exists_ofRatio? {num den : Nat} (negative : Bool) (positive : den ≠ 0)
    (small : (num / den : ℚ) < overflow) : ∃ x, ofRatio? negative num den = some x := by
  by_cases some_ : num = 0
  · exact ⟨_, if_pos some_⟩
  obtain ⟨least, -, -⟩ := exponentOf_bounds some_ positive
  obtain ⟨most, fills⟩ := roundedAt_bounds some_ positive
  have highest := exponentOf_le some_ positive small
  rw [ofRatio?_eq negative some_]
  dsimp only
  generalize exponentOf num den = exponent at *
  generalize roundedAt exponent num den = mantissa at *
  split
  · rename_i carried
    have inRange : InRange 0x10000000000000 (exponent + 1) := by
      refine ⟨by decide, ?_, ?_, .inl (by decide)⟩ <;> omega
    exact ⟨_, dif_pos inRange⟩
  · rename_i whole
    have inRange : InRange mantissa exponent := by
      refine ⟨?_, least, ?_, fills⟩ <;> omega
    exact ⟨_, dif_pos inRange⟩

theorem magnitude_ofRatio? {num den : Nat} {negative : Bool} {x : Double} (some_ : num ≠ 0)
    (rounded : ofRatio? negative num den = some x) :
    x.magnitude = roundedAt (exponentOf num den) num den * 2 ^ exponentOf num den := by
  rw [ofRatio?_eq negative some_] at rounded
  dsimp only at rounded
  split at rounded
  · rename_i carried
    split at rounded
    · obtain rfl := Option.some.inj rounded
      change ((0x10000000000000 : Nat) * 2 ^ (exponentOf num den + 1) : ℚ) = _
      rw [zpow_add_one₀ two_ne_zero, carried]
      push_cast
      ring
    · cases rounded
  · split at rounded
    · obtain rfl := Option.some.inj rounded
      rfl
    · cases rounded

/-- Rounding of natural numbers keeps their order. -/
theorem ofNat?_mono {m n : Nat} {x y : Double} (le : m ≤ n) (first : ofNat? m = some x)
    (second : ofNat? n = some y) : x.magnitude ≤ y.magnitude := by
  by_cases none : m = 0
  · subst none
    obtain rfl : zero false = x := Option.some.inj first
    rw [magnitude, zero, Nat.cast_zero, zero_mul]
    exact y.magnitude_nonneg
  have some_ : n ≠ 0 := by omega
  rw [magnitude_ofRatio? none first, magnitude_ofRatio? some_ second]
  obtain ⟨least, -, below⟩ := exponentOf_bounds none Nat.one_ne_zero
  obtain ⟨least', above, -⟩ := exponentOf_bounds some_ Nat.one_ne_zero
  obtain ⟨most, -⟩ := roundedAt_bounds none Nat.one_ne_zero
  obtain ⟨-, fills⟩ := roundedAt_bounds some_ Nat.one_ne_zero
  have double (exponent : Int) : (2 ^ 53 * 2 ^ exponent : ℚ) = 2 ^ 52 * 2 ^ (exponent + 1) := by
    rw [zpow_add_one₀ two_ne_zero]
    ring
  rcases lt_trichotomy (exponentOf m 1) (exponentOf n 1) with lower | same | higher
  · calc (roundedAt (exponentOf m 1) m 1 * 2 ^ exponentOf m 1 : ℚ)
        ≤ 2 ^ 53 * 2 ^ exponentOf m 1 := by
          gcongr
          exact_mod_cast most
      _ = 2 ^ 52 * 2 ^ (exponentOf m 1 + 1) := double _
      _ ≤ roundedAt (exponentOf n 1) n 1 * 2 ^ exponentOf n 1 := by
          gcongr
          · exact_mod_cast fills.resolve_right (by omega)
          · norm_num
          · exact lower
  · rw [same]
    gcongr
    exact roundDiv_mono (Nat.mul_pos Nat.one_pos (Nat.two_pow_pos _)) (Nat.mul_le_mul_right _ le)
  · have reached := below.resolve_right (by omega)
    have crossed : (2 ^ 53 * 2 ^ exponentOf n 1 : ℚ) ≤ 2 ^ 52 * 2 ^ exponentOf m 1 := by
      rw [double]
      gcongr
      · norm_num
      · exact higher
    have order : (m : ℚ) ≤ n := by exact_mod_cast le
    simp only [Nat.cast_one, div_one] at reached above
    linarith

theorem magnitude_lt (x : Double) : x.magnitude < overflow := by
  obtain ⟨small, -, high, -⟩ := x.inRange
  have unit : (0 : ℚ) < 2 ^ (970 : Int) := by positivity
  have few : (x.mantissa : ℚ) ≤ 2 ^ 53 - 1 := by
    have whole : x.mantissa + 1 ≤ 2 ^ 53 := small
    exact le_sub_iff_add_le.mpr (by exact_mod_cast whole)
  calc x.magnitude ≤ (2 ^ 53 - 1) * 2 ^ (971 : Int) :=
        mul_le_mul few (zpow_le_zpow_right₀ one_le_two high) (by positivity) (by norm_num)
    _ = (2 ^ 54 - 2) * 2 ^ (970 : Int) := by
        rw [show (971 : Int) = 970 + 1 from rfl, zpow_add_one₀ two_ne_zero]
        ring
    _ < overflow := by
        unfold overflow
        gcongr
        norm_num

theorem exists_ofNat? {n : Nat} (small : (n : ℚ) < overflow) : ∃ x, ofNat? n = some x :=
  exists_ofRatio? false Nat.one_ne_zero (by rwa [Nat.cast_one, div_one])

/-- A product of magnitudes as the quotient that is rounded. -/
theorem magnitude_mul (x y : Double) :
    x.magnitude * y.magnitude = (x.mantissa * y.mantissa * twoTo (x.exponent + y.exponent) : Nat) /
      twoTo (-(x.exponent + y.exponent)) := by
  push_cast
  rw [mul_div_assoc, twoTo_div, zpow_add₀ two_ne_zero]
  unfold magnitude
  ring

theorem exists_mul? {x y : Double} (small : x.magnitude * y.magnitude < overflow) :
    ∃ z, x.mul? y = some z := by
  refine exists_ofRatio? x.negative (Nat.ne_of_gt (Nat.two_pow_pos _)) ?_
  rwa [← magnitude_mul]

/-- Division by at least one stays in the range. -/
theorem exists_div? {x y : Double} (one_le : 1 ≤ y.magnitude) : ∃ z, x.div? y = some z := by
  have yPos : (0 : ℚ) < y.mantissa := by
    by_contra none
    have zero : (y.mantissa : ℚ) = 0 := le_antisymm (not_lt.mp none) (Nat.cast_nonneg _)
    rw [magnitude, zero, zero_mul] at one_le
    exact absurd one_le (by norm_num)
  have divisor : y.mantissa * twoTo (-(x.exponent - y.exponent)) ≠ 0 :=
    Nat.mul_ne_zero (by exact_mod_cast yPos.ne') (Nat.ne_of_gt (Nat.two_pow_pos _))
  refine exists_ofRatio? x.negative divisor ?_
  have quotient : ((x.mantissa * twoTo (x.exponent - y.exponent) : Nat) /
      (y.mantissa * twoTo (-(x.exponent - y.exponent)) : Nat) : ℚ) = x.magnitude / y.magnitude := by
    push_cast
    rw [mul_div_mul_comm, twoTo_div, zpow_sub₀ two_ne_zero]
    unfold magnitude
    rw [mul_div_mul_comm]
  rw [quotient]
  calc x.magnitude / y.magnitude ≤ x.magnitude / 1 :=
        div_le_div_of_nonneg_left x.magnitude_nonneg one_pos one_le
    _ = x.magnitude := div_one _
    _ < overflow := x.magnitude_lt

end VmAdmission.Double
