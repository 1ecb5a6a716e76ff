import VmAdmission.Decimal.Shortest
import VmAdmission.Proofs.Decimal.Rounding

namespace VmAdmission.Double

theorem twoTo_cast {n : Int} (positive : 0 ≤ n) : (twoTo n : ℚ) = 2 ^ n := by
  obtain ⟨k, rfl⟩ := Int.eq_ofNat_of_zero_le positive
  simp [twoTo]

theorem overflow_eq : overflow = ((2 ^ 54 - 1) * twoTo 970 : Nat) := by
  rw [overflow, Nat.cast_mul, twoTo_cast (by decide)]
  norm_num

theorem lt_overflow {n : Nat} (small : n ≤ tenTo 308) : (n : ℚ) < overflow := by
  have power : tenTo 308 < (2 ^ 54 - 1) * twoTo 970 := by decide +kernel
  rw [overflow_eq]
  exact Nat.cast_lt.mpr (Nat.lt_of_le_of_lt small power)

theorem pow_le_tenTo {places : Nat} {n : Int} (small : places ≤ n.toNat) :
    Nat.pow 10 places ≤ tenTo n :=
  Nat.pow_le_pow_right (by decide) small

theorem lt_of_pow_lt_tenTo {places : Nat} {n : Int} (small : 10 ^ places < tenTo n) :
    places < n.toNat :=
  (Nat.pow_lt_pow_iff_right (by decide)).mp small

/-- A power of ten in the range of doubles is rounded to at least one. -/
theorem exists_tenPower {places : Nat} (small : places ≤ 308) :
    ∃ x, ofNat? (Nat.pow 10 places) = some x ∧ 1 ≤ x.magnitude := by
  obtain ⟨x, rounded⟩ := exists_ofNat? (lt_overflow (pow_le_tenTo small))
  have one : ofNat? 1 = some ⟨false, 0x10000000000000, -52, by decide⟩ := by decide +kernel
  refine ⟨x, rounded, le_trans ?_ (ofNat?_mono (Nat.one_le_pow _ _ (by decide)) one rounded)⟩
  norm_num [magnitude]

/-- Nothing overflows in a division. -/
theorem exists_shrink (rounds : Nat) (x : Double) (places : Nat) :
    ∃ y, shrink rounds x places = some y := by
  induction rounds generalizing x places with
  | zero => exact ⟨_, rfl⟩
  | succ rounds ih =>
    unfold shrink
    split
    · exact ⟨x, rfl⟩
    -- With a variable for the largest step nothing computes its power of ten.
    generalize largest : 308 = most
    split
    · rename_i few
      obtain ⟨power, rounded, one_le⟩ := exists_tenPower (few.trans largest.ge)
      rw [rounded]
      exact exists_div? one_le
    · obtain ⟨power, rounded, one_le⟩ := exists_tenPower largest.ge
      obtain ⟨quotient, divided⟩ := exists_div? (x := x) one_le
      obtain ⟨y, rest⟩ := ih quotient (places - most)
      exact ⟨y, Option.bind_eq_some_iff.mpr ⟨power, rounded,
        Option.bind_eq_some_iff.mpr ⟨quotient, divided, rest⟩⟩⟩

/-- The product of two doubles, in natural numbers, is less than what overflows. -/
def Fits (x y : Double) : Prop :=
  x.mantissa * y.mantissa * twoTo (x.exponent + y.exponent) <
    (2 ^ 54 - 1) * twoTo 970 * twoTo (-(x.exponent + y.exponent))

instance (x y : Double) : Decidable (Fits x y) := by unfold Fits; infer_instance

theorem fits_iff {x y : Double} : Fits x y ↔ x.magnitude * y.magnitude < overflow := by
  rw [magnitude_mul, div_lt_iff₀ (twoTo_cast_pos _), overflow_eq, ← Nat.cast_mul, Nat.cast_lt, Fits]

/-- The largest significand, up to a given one, with which a power of ten is not more than the
bound gives a product that does not overflow, for all powers of ten. -/
def Bounded (most bound : Nat) : Prop :=
  ∀ e < 309, (ofNat? (min most (bound / Nat.pow 10 e))).any fun x =>
    (ofNat? (Nat.pow 10 e)).any fun y => Fits x y

instance (most bound : Nat) : Decidable (Bounded most bound) := by unfold Bounded; infer_instance

/-- So no product of a smaller significand overflows. -/
theorem Bounded.exists_ofDecimal? {most bound significand : Nat} {exponent : Int}
    (bounded : Bounded most bound) (few : significand ≤ most) (most_le : most ≤ tenTo 308)
    (bound_lt : bound < tenTo 309) (small : (significand * 10 ^ exponent : ℚ) ≤ bound)
    (negative : Bool) : ∃ x, ofDecimal? negative significand exponent = some x := by
  obtain ⟨x, rounded⟩ := exists_ofNat? (lt_overflow (Nat.le_trans few most_le))
  rw [ofDecimal?, rounded, Option.bind_eq_bind, Option.bind_some]
  dsimp only
  split
  · exact exists_shrink 4 _ _
  rename_i whole
  obtain ⟨e, rfl⟩ := Int.eq_ofNat_of_zero_le (not_lt.mp whole)
  rw [zpow_natCast] at small
  have small : significand * 10 ^ e ≤ bound := by exact_mod_cast small
  split
  · exact ⟨_, rfl⟩
  rename_i notZero
  have positive : 0 < significand := by
    refine Nat.pos_of_ne_zero fun none => notZero ?_
    subst none
    cases rounded
    rfl
  have power : e < 309 := by
    refine lt_of_pow_lt_tenTo (Nat.lt_of_le_of_lt ?_ bound_lt)
    exact Nat.le_trans (Nat.le_mul_of_pos_left _ positive) small
  rw [if_pos (by omega : (e : Int) ≤ 308)]
  obtain ⟨largest, first, entry⟩ := (Option.any_eq_true ..).mp (bounded e power)
  obtain ⟨tenth, second, fits⟩ := (Option.any_eq_true ..).mp entry
  have fits := fits_iff.mp (of_decide_eq_true fits)
  have smaller : significand ≤ min most (bound / 10 ^ e) :=
    Nat.le_min.mpr ⟨few, (Nat.le_div_iff_mul_le (Nat.pow_pos (by decide))).mpr small⟩
  have order := ofNat?_mono smaller rounded first
  rw [Int.toNat_natCast, second, Option.bind_some]
  exact exists_mul? (lt_of_le_of_lt (mul_le_mul_of_nonneg_right order tenth.magnitude_nonneg) fits)

end VmAdmission.Double
