import Mathlib.Algebra.Group.Nat.Defs
import VmAdmission.Proofs.Decimal.Overflow

namespace VmAdmission.Double

theorem twoTo_pos (n : Int) : 0 < twoTo n := Nat.two_pow_pos _

theorem tenTo_pos (n : Int) : 0 < tenTo n := Nat.pow_pos (by decide)

/-- What is found on a grid is near to the number. -/
theorem onGrid?_near {x : Double} {place : Int} {d : Decimal} (found : onGrid? x place = some d) :
    d.exponent = place ∧
      (4 * x.mantissa - 2) * (gridFactors x.exponent place).1 ≤
        d.digits * (gridFactors x.exponent place).2 ∧
      d.digits * (gridFactors x.exponent place).2 ≤
        (4 * x.mantissa + 2) * (gridFactors x.exponent place).1 := by
  simp -zeta only [onGrid?] at found
  extract_lets value gap low high inside below rest nearerBelow at found
  have lower : (4 * x.mantissa - 2) * (gridFactors x.exponent place).1 ≤ low := by
    refine Nat.mul_le_mul_right _ ?_
    simp only [gap]
    split <;> omega
  have near (n : Nat) (within : inside n = true) :
      (4 * x.mantissa - 2) * (gridFactors x.exponent place).1 ≤
        n * (gridFactors x.exponent place).2 ∧
      n * (gridFactors x.exponent place).2 ≤ high := by
    simp only [inside] at within
    split at within <;> simp only [Bool.and_eq_true, decide_eq_true_eq] at within <;> omega
  split at found
  · rename_i both
    obtain ⟨first, second⟩ := Bool.and_eq_true_iff.mp both
    obtain rfl := Option.some.inj found
    refine ⟨rfl, ?_⟩
    simp only
    split
    · exact near below first
    · exact near (below + 1) second
  · split at found
    · rename_i within
      obtain rfl := Option.some.inj found
      exact ⟨rfl, near below within⟩
    · split at found
      · rename_i within
        obtain rfl := Option.some.inj found
        exact ⟨rfl, near (below + 1) within⟩
      · cases found

/-- Zero is not near enough to a number that is not zero. -/
theorem onGrid?_digits_ne_zero {x : Double} {place : Int} {d : Decimal} (positive : x.mantissa ≠ 0)
    (found : onGrid? x place = some d) : d.digits ≠ 0 := by
  obtain ⟨-, low, -⟩ := onGrid?_near found
  have factor : 0 < (gridFactors x.exponent place).1 := Nat.mul_pos (twoTo_pos _) (tenTo_pos _)
  have some_ : 0 < (4 * x.mantissa - 2) * (gridFactors x.exponent place).1 :=
    Nat.mul_pos (by omega) factor
  intro zero
  rw [zero, Nat.zero_mul] at low
  omega

/-- The grid is fine enough to have a multiple of its step below the number. -/
def Covers (x : Double) (place : Int) : Prop :=
  (gridFactors x.exponent place).2 ≤ 4 * x.mantissa * (gridFactors x.exponent place).1

theorem search_digits_ne_zero {x : Double} (positive : x.mantissa ≠ 0) {grids : Nat} {place : Int}
    (fine : Covers x (place - grids)) : (search x grids place).digits ≠ 0 := by
  induction grids generalizing place with
  | zero =>
    simp only [Int.natCast_zero, Int.sub_zero] at fine
    exact Nat.ne_of_gt (Nat.div_pos fine (Nat.mul_pos (twoTo_pos _) (tenTo_pos _)))
  | succ grids ih =>
    unfold search
    split
    · rename_i d found
      exact onGrid?_digits_ne_zero positive found
    · refine ih ?_
      rwa [show place - 1 - (grids : Int) = place - ((grids + 1 : Nat) : Int) by omega]

theorem trimmed_digits_ne_zero {d : Decimal} (positive : d.digits ≠ 0) (places : Nat) :
    (d.trimmed places).digits ≠ 0 := by
  induction places generalizing d with
  | zero => exact positive
  | succ places ih =>
    unfold Decimal.trimmed
    split
    · refine ih ?_
      simp only
      omega
    · exact positive

theorem ten_pow_le_two_pow {p n : Nat} (enough : 10 * (p / 3 + 1) ≤ n) : 10 ^ p ≤ 2 ^ n :=
  calc 10 ^ p ≤ 10 ^ (3 * (p / 3 + 1)) := Nat.pow_le_pow_right (by decide) (by omega)
    _ = (10 ^ 3) ^ (p / 3 + 1) := Nat.pow_mul ..
    _ ≤ (2 ^ 10) ^ (p / 3 + 1) := Nat.pow_le_pow_left (by decide) _
    _ = 2 ^ (10 * (p / 3 + 1)) := (Nat.pow_mul ..).symm
    _ ≤ 2 ^ n := Nat.pow_le_pow_right (by decide) enough

theorem two_pow_le_ten_pow {n q : Nat} (enough : 4 * (n / 13 + 1) ≤ q) : 2 ^ n ≤ 10 ^ q :=
  calc 2 ^ n ≤ 2 ^ (13 * (n / 13 + 1)) := Nat.pow_le_pow_right (by decide) (by omega)
    _ = (2 ^ 13) ^ (n / 13 + 1) := Nat.pow_mul ..
    _ ≤ (10 ^ 4) ^ (n / 13 + 1) := Nat.pow_le_pow_left (by decide) _
    _ = 10 ^ (4 * (n / 13 + 1)) := (Nat.pow_mul ..).symm
    _ ≤ 10 ^ q := Nat.pow_le_pow_right (by decide) enough

theorem leadingPlace_le (num den : Nat) :
    leadingPlace num den ≤ ((num.log2 : Int) - den.log2) * 30103 / 100000 + 1 := by
  unfold leadingPlace
  extract_lets guess reached
  split
  · exact Int.le_refl _
  · split <;> omega

/-- A power of ten well below a power of two, the exponents with either sign. -/
theorem two_pow_mul_tenTo_le {k b : Nat} {p : Int} (bounds : k ≤ b + 1100 ∧ b ≤ k + 1100)
    (below : p ≤ ((k : Int) - b) * 30103 / 100000 - 16) :
    2 ^ b * tenTo p ≤ 2 ^ k * tenTo (-p) := by
  obtain ⟨upper, lower⟩ := bounds
  by_cases sign : 0 ≤ p
  · have none : tenTo (-p) = 1 := by simp [tenTo, Int.toNat_of_nonpos (by omega : -p ≤ 0)]
    obtain ⟨d, rfl⟩ : ∃ d, k = b + d := Nat.exists_eq_add_of_le (by omega)
    have power : tenTo p ≤ 2 ^ d := ten_pow_le_two_pow (by omega)
    rw [none, Nat.mul_one, Nat.pow_add]
    exact Nat.mul_le_mul_left _ power
  · have none : tenTo p = 1 := by simp [tenTo, Int.toNat_of_nonpos (by omega : p ≤ 0)]
    rw [none, Nat.mul_one]
    by_cases order : b ≤ k
    · calc 2 ^ b ≤ 2 ^ k := Nat.pow_le_pow_right (by decide) order
        _ ≤ 2 ^ k * tenTo (-p) := Nat.le_mul_of_pos_right _ (tenTo_pos _)
    · obtain ⟨d, rfl⟩ : ∃ d, b = k + d := Nat.exists_eq_add_of_le (by omega)
      have power : 2 ^ d ≤ tenTo (-p) := two_pow_le_ten_pow (by omega)
      rw [Nat.pow_add]
      exact Nat.mul_le_mul_left _ power

theorem twoTo_split (e : Int) : twoTo (2 - e) * twoTo e = 4 * (twoTo (e - 2) * twoTo (-e)) := by
  have power (n : Int) : twoTo n = 2 ^ n.toNat := rfl
  rw [power, power, power, power, show (4 : Nat) = 2 ^ 2 from rfl, ← Nat.pow_add, ← Nat.pow_add,
    ← Nat.pow_add]
  congr 1
  omega

/-- Seventeen places after the first digit the grid is fine enough. -/
theorem covers_seventeenth {x : Double} (positive : x.mantissa ≠ 0) :
    Covers x (leadingPlace (x.mantissa * twoTo x.exponent) (twoTo (-x.exponent)) - (17 : Nat)) := by
  obtain ⟨small, lowest, highest, -⟩ := x.inRange
  have place := leadingPlace_le (x.mantissa * twoTo x.exponent) (twoTo (-x.exponent))
  generalize leadingPlace (x.mantissa * twoTo x.exponent) (twoTo (-x.exponent)) = first at *
  have numPos : x.mantissa * twoTo x.exponent ≠ 0 :=
    Nat.mul_ne_zero positive (Nat.ne_of_gt (twoTo_pos _))
  have least := Nat.log2_self_le numPos
  have most : (x.mantissa * twoTo x.exponent).log2 < 53 + x.exponent.toNat := by
    rw [Nat.log2_lt numPos, Nat.pow_add]
    exact Nat.mul_lt_mul_of_pos_right small (twoTo_pos _)
  rw [show (twoTo (-x.exponent)).log2 = (-x.exponent).toNat from Nat.log2_two_pow] at place
  have reached : twoTo (-x.exponent) * tenTo (first - (17 : Nat)) ≤
      x.mantissa * twoTo x.exponent * tenTo (-(first - (17 : Nat))) :=
    Nat.le_trans (two_pow_mul_tenTo_le (by omega) (by omega)) (Nat.mul_le_mul_right _ least)
  generalize first - (17 : Nat) = p at *
  -- The grid counts quarters of the mantissa; both sides are brought to the number itself.
  refine Nat.le_of_mul_le_mul_left ?_ (twoTo_pos (-x.exponent))
  have split := twoTo_split x.exponent
  calc twoTo (-x.exponent) * (twoTo (2 - x.exponent) * tenTo p)
      = twoTo (2 - x.exponent) * (twoTo (-x.exponent) * tenTo p) := Nat.mul_left_comm ..
    _ ≤ twoTo (2 - x.exponent) * (x.mantissa * twoTo x.exponent * tenTo (-p)) :=
        Nat.mul_le_mul_left _ reached
    _ = x.mantissa * tenTo (-p) * (twoTo (2 - x.exponent) * twoTo x.exponent) := by ac_rfl
    _ = twoTo (-x.exponent) * (4 * x.mantissa * (twoTo (x.exponent - 2) * tenTo (-p))) := by
        rw [split]
        ac_rfl

theorem shortest_digits_ne_zero {x : Double} (positive : x.mantissa ≠ 0) :
    x.shortest.digits ≠ 0 :=
  trimmed_digits_ne_zero (search_digits_ne_zero positive (covers_seventeenth positive)) 20

theorem tenTo_div (n : Int) : (tenTo n : ℚ) / tenTo (-n) = 10 ^ n := by
  simpa [tenTo] using pow_toNat_div 10 n

theorem tenTo_cast {n : Int} (positive : 0 ≤ n) : (tenTo n : ℚ) = 10 ^ n := by
  obtain ⟨k, rfl⟩ := Int.eq_ofNat_of_zero_le positive
  simp [tenTo]

/-- The number that a decimal stands for. -/
def Decimal.value (d : Decimal) : ℚ :=
  d.digits * 10 ^ d.exponent

/-- On the grid a number is compared as it is. -/
theorem gridFactors_le_iff {exponent place : Int} {digits quarters : Nat} :
    digits * (gridFactors exponent place).2 ≤ quarters * (gridFactors exponent place).1 ↔
      (digits * 10 ^ place : ℚ) ≤ quarters * 2 ^ (exponent - 2) := by
  have two := twoTo_div (exponent - 2)
  have ten := tenTo_div place
  rw [neg_sub] at two
  have down : (0 : ℚ) < twoTo (2 - exponent) := twoTo_cast_pos _
  have up : (0 : ℚ) < tenTo (-place) := by exact_mod_cast tenTo_pos _
  rw [← two, ← ten, mul_div_assoc', mul_div_assoc', div_le_div_iff₀ up down, gridFactors,
    ← Nat.cast_le (α := ℚ)]
  push_cast
  constructor <;> intro le <;> linarith

/-- What is written is not more than half a step above the number. -/
theorem search_le (x : Double) (grids : Nat) (place : Int) :
    (search x grids place).value ≤ (4 * x.mantissa + 2 : Nat) * 2 ^ (x.exponent - 2) := by
  induction grids generalizing place with
  | zero =>
    refine gridFactors_le_iff.mp (Nat.le_trans (Nat.div_mul_le_self _ _) ?_)
    exact Nat.mul_le_mul_right _ (Nat.le_add_right _ 2)
  | succ grids ih =>
    unfold search
    split
    · rename_i d found
      obtain ⟨same, -, high⟩ := onGrid?_near found
      rw [Decimal.value, same]
      exact gridFactors_le_iff.mp high
    · exact ih _

theorem trimmed_value (d : Decimal) (places : Nat) : (d.trimmed places).value = d.value := by
  induction places generalizing d with
  | zero => rfl
  | succ places ih =>
    unfold Decimal.trimmed
    split
    · rename_i trailing
      have split : d.digits = d.digits / 10 * 10 := by omega
      rw [ih, Decimal.value, Decimal.value, zpow_add_one₀ (by norm_num)]
      conv_rhs => rw [split]
      push_cast
      ring
    · rfl

theorem shortest_le (x : Double) :
    x.shortest.value ≤ (4 * x.mantissa + 2 : Nat) * 2 ^ (x.exponent - 2) := by
  rw [shortest, trimmed_value]
  exact search_le x 17 _

theorem shortest_le_tenTo (x : Double) : x.shortest.value ≤ 10 ^ (400 : Int) := by
  obtain ⟨small, -, high, -⟩ := x.inRange
  have top : 2 ^ 55 * twoTo 969 ≤ tenTo 400 := by decide +kernel
  calc x.shortest.value ≤ (4 * x.mantissa + 2 : Nat) * 2 ^ (x.exponent - 2) := x.shortest_le
    _ ≤ (2 ^ 55 : Nat) * 2 ^ (969 : Int) :=
        mul_le_mul (Nat.cast_le.mpr (by omega)) (zpow_le_zpow_right₀ one_le_two (by omega))
          (zpow_nonneg zero_le_two _) (Nat.cast_nonneg _)
    _ = (2 ^ 55 * twoTo 969 : Nat) := by rw [Nat.cast_mul, twoTo_cast (by decide)]
    _ ≤ (tenTo 400 : Nat) := Nat.cast_le.mpr top
    _ = 10 ^ (400 : Int) := tenTo_cast (by decide)

/-- Below the largest number, what is written is a step and a half below what overflows. -/
theorem shortest_below {x : Double} (below : x.mantissa < 2 ^ 53 - 1 ∨ x.exponent < 971) :
    x.shortest.value ≤ ((2 ^ 54 - 3) * twoTo 970 : Nat) := by
  obtain ⟨small, -, high, -⟩ := x.inRange
  have cast : (((2 ^ 54 - 3) * twoTo 970 : Nat) : ℚ) = (2 ^ 55 - 6) * 2 ^ (969 : Int) := by
    rw [Nat.cast_mul, twoTo_cast (by decide), show (970 : Int) = 969 + 1 from rfl,
      zpow_add_one₀ two_ne_zero, mul_comm ((2 : ℚ) ^ (969 : Int)), ← mul_assoc]
    norm_num
  have bound (quarters : Nat) (exponent : Int) (most : 4 * x.mantissa + 2 ≤ quarters)
      (le : x.exponent - 2 ≤ exponent) : x.shortest.value ≤ quarters * 2 ^ exponent :=
    le_trans x.shortest_le (mul_le_mul (Nat.cast_le.mpr most) (zpow_le_zpow_right₀ one_le_two le)
      (zpow_nonneg zero_le_two _) (Nat.cast_nonneg _))
  rw [cast]
  rcases below with fewer | lower
  · refine le_trans (bound (2 ^ 55 - 6) 969 (by omega) (by omega)) (le_of_eq ?_)
    norm_num
  · refine le_trans (bound (2 ^ 55 - 2) 968 (by omega) (by omega)) ?_
    rw [show (969 : Int) = 968 + 1 from rfl, zpow_add_one₀ two_ne_zero,
      mul_comm ((2 : ℚ) ^ (968 : Int)), ← mul_assoc]
    refine mul_le_mul_of_nonneg_right ?_ (zpow_nonneg zero_le_two _)
    norm_num

theorem shortest_largest {x : Double} (mantissa : x.mantissa = 2 ^ 53 - 1)
    (exponent : x.exponent = 971) :
    x.shortest.digits = 17976931348623157 ∧ x.shortest.exponent = 292 := by
  have written : ∀ negative,
      (⟨negative, 2 ^ 53 - 1, 971, by decide⟩ : Double).shortest.digits = 17976931348623157 ∧
      (⟨negative, 2 ^ 53 - 1, 971, by decide⟩ : Double).shortest.exponent = 292 := by
    decide +kernel
  obtain ⟨negative, _, _, _⟩ := x
  subst mantissa exponent
  exact written negative

theorem bounded_below : Bounded 0xFFFFFFFFFFFFFFFF ((2 ^ 54 - 3) * twoTo 970) := by decide +kernel

theorem bounded_largest : Bounded (tenTo 17) (17976931348623157 * tenTo 292) := by decide +kernel

/-- Whatever is left of what is written for a double, if only so many digits of it are taken, can be
read. -/
theorem shortest_ofDecimal? {x : Double} {significand : Nat} {exponent : Int}
    (few : significand ≤ 0xFFFFFFFFFFFFFFFF)
    (taken : significand ≤ max x.shortest.digits (tenTo 17))
    (small : (significand * 10 ^ exponent : ℚ) ≤ x.shortest.value) (negative : Bool) :
    ∃ y, ofDecimal? negative significand exponent = some y := by
  by_cases below : x.mantissa < 2 ^ 53 - 1 ∨ x.exponent < 971
  · exact bounded_below.exists_ofDecimal? few (by decide +kernel) (by decide +kernel)
      (le_trans small (shortest_below below)) negative
  · obtain ⟨most, -, highest, -⟩ := x.inRange
    obtain ⟨digits, place⟩ := shortest_largest (x := x) (by omega) (by omega)
    rw [Decimal.value, digits, place] at small
    rw [digits] at taken
    have top : ((17976931348623157 : Nat) * 10 ^ (292 : Int) : ℚ) =
        (17976931348623157 * tenTo 292 : Nat) := by
      rw [Nat.cast_mul, tenTo_cast (by decide)]
    exact bounded_largest.exists_ofDecimal? (Nat.le_trans taken (by decide +kernel))
      (by decide +kernel) (by decide +kernel) (le_of_le_of_eq small top) negative

end VmAdmission.Double
