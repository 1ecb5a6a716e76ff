import Mathlib.Data.List.Forall2
import VmAdmission.Text.Ascii

namespace VmAdmission

theorem le_ofDigitChars (ds : List Char) (n : Nat) : n ≤ Nat.ofDigitChars 10 ds n := by
  rw [Nat.ofDigitChars_eq_ofDigitChars_zero]
  have : 1 ≤ 10 ^ ds.length := Nat.one_le_pow _ _ (by decide)
  calc n = 1 * n := (Nat.one_mul n).symm
    _ ≤ 10 ^ ds.length * n := Nat.mul_le_mul_right n this
    _ ≤ _ := Nat.le_add_right ..

theorem ofDigitChars_step (c : Char) (cs : List Char) (n : Nat) :
    Nat.ofDigitChars 10 (c :: cs) n = Nat.ofDigitChars 10 cs (n * 10 + (c.toNat - 48)) := by
  simp [Nat.ofDigitChars_cons, Nat.mul_comm]

namespace Ascii

theorem digit?_eq (c : Char) : digit? c = if c.isDigit then some (c.toNat - 48) else none := by
  have same : ('0' ≤ c ∧ c ≤ '9') ↔ c.isDigit := Char.isDigit_iff_toNat.symm
  simp only [digit?, same]
  rfl

/-- Raising and lowering the case of a character undo each other. -/
theorem toLower_toUpper (c : Char) :
    c.toUpper.toLower = c.toLower ∧ c.toLower.toUpper = c.toUpper := by
  have ascii : ∀ n < 128, (Char.ofNat n).toUpper.toLower = (Char.ofNat n).toLower ∧
      (Char.ofNat n).toLower.toUpper = (Char.ofNat n).toUpper := by decide
  by_cases small : c.toNat < 128
  · rw [← Char.ofNat_toNat c]
    exact ascii c.toNat small
  have notLower : ¬ ('a'.val ≤ c.val ∧ c.val ≤ 'z'.val) := by
    rintro ⟨-, high⟩
    have : c.toNat ≤ 122 := UInt32.le_iff_toNat_le.mp high
    omega
  have notUpper : ¬ (c.val ≥ 'A'.val ∧ c.val ≤ 'Z'.val) := by
    rintro ⟨-, high⟩
    have : c.toNat ≤ 90 := UInt32.le_iff_toNat_le.mp high
    omega
  have up : c.toUpper = c := dif_neg notLower
  have low : c.toLower = c := dif_neg notUpper
  rw [up, low, up]
  exact ⟨rfl, rfl⟩

/-- Texts are alike exactly if they are the same in upper case. -/
theorem alike_iff_upper {a b : String} :
    alike a b = true ↔ a.toList.map Char.toUpper = b.toList.map Char.toUpper := by
  rw [alike, beq_iff_eq]
  constructor
  · intro same
    simpa [Function.comp_def, toLower_toUpper] using congrArg (List.map Char.toUpper) same
  · intro same
    simpa [Function.comp_def, toLower_toUpper] using congrArg (List.map Char.toLower) same

/-- The characters are the same, or the two cases of one ASCII letter. -/
def SameLetter (c d : Char) : Prop :=
  c = d ∨ (c.isUpper ∧ d.toNat = c.toNat + 32) ∨ (d.isUpper ∧ c.toNat = d.toNat + 32)

/-- The texts have the same characters one by one, but for the case of ASCII letters. -/
def SameButCase (a b : String) : Prop :=
  List.Forall₂ SameLetter a.toList b.toList

theorem isUpper_iff_toNat {c : Char} : c.isUpper ↔ 65 ≤ c.toNat ∧ c.toNat ≤ 90 := by
  change decide ('A'.val ≤ c.val ∧ c.val ≤ 'Z'.val) = true ↔ _
  rw [decide_eq_true_eq, UInt32.le_iff_toNat_le, UInt32.le_iff_toNat_le]
  rfl

theorem toNat_toLower (c : Char) :
    c.toLower.toNat = if c.isUpper then c.toNat + 32 else c.toNat := by
  unfold Char.toLower
  by_cases upper : c.isUpper
  · have bounds := isUpper_iff_toNat.mp upper
    have capital : c.val ≥ 'A'.val ∧ c.val ≤ 'Z'.val :=
      ⟨UInt32.le_iff_toNat_le.mpr bounds.1, UInt32.le_iff_toNat_le.mpr bounds.2⟩
    have raised : (c.val + ('a'.val - 'A'.val)).toNat = (c.toNat + 32) % 2 ^ 32 := UInt32.toNat_add ..
    rw [dif_pos capital, if_pos upper]
    change (c.val + ('a'.val - 'A'.val)).toNat = c.toNat + 32
    omega
  · have other : ¬ (c.val ≥ 'A'.val ∧ c.val ≤ 'Z'.val) := by
      rintro ⟨low, high⟩
      exact upper (isUpper_iff_toNat.mpr
        ⟨UInt32.le_iff_toNat_le.mp low, UInt32.le_iff_toNat_le.mp high⟩)
    rw [dif_neg other, if_neg upper]

theorem toLower_eq_iff {c d : Char} : c.toLower = d.toLower ↔ SameLetter c d := by
  rw [← Char.toNat_inj, toNat_toLower, toNat_toLower, SameLetter, ← Char.toNat_inj]
  simp only [isUpper_iff_toNat]
  split <;> split <;> omega

theorem alike_iff {a b : String} : alike a b = true ↔ SameButCase a b := by
  rw [alike, beq_iff_eq, SameButCase, ← List.forall₂_eq_eq_eq, List.forall₂_map_left_iff,
    List.forall₂_map_right_iff]
  simp only [toLower_eq_iff]

theorem alike_comm {a b : String} : alike a b = alike b a :=
  BEq.comm

/-- A text in lower case is a word in lower case exactly if it is that word but for its case. -/
theorem lower_eq_iff {text word : String} (lowered : lower word = word) :
    lower text = word ↔ SameButCase text word := by
  have letters : word.toList.map Char.toLower = word.toList := by
    simpa [lower] using congrArg String.toList lowered
  rw [← alike_iff, alike, beq_iff_eq, letters, lower, ← String.toList_inj, String.toList_ofList]

end Ascii

end VmAdmission
