import Mathlib.Logic.Basic
import VmAdmission.Http.Message

namespace VmAdmission.Http

/-- The character of a byte. -/
def byteChar (b : UInt8) : Char :=
  Char.ofNat b.toNat

theorem byteChar_toNat (b : UInt8) : (byteChar b).toNat = b.toNat := by
  have valid : b.toNat.isValidChar := .inl (Nat.lt_trans b.toNat_lt (by decide))
  rw [byteChar, Char.ofNat, dif_pos valid]
  rfl

theorem byteChar_injective : Function.Injective byteChar := by
  intro a b same
  rw [← UInt8.toNat_inj, ← byteChar_toNat, ← byteChar_toNat, same]

/-- Bytes read as text, one character each. -/
def byteText (value : List UInt8) : String :=
  String.ofList (value.map byteChar)

/-- All bytes may stand in a header that is read as text. -/
def Readable (value : List UInt8) : Prop :=
  ∀ b ∈ value, isVisible b

instance (value : List UInt8) : Decidable (Readable value) :=
  inferInstanceAs (Decidable (∀ b ∈ value, isVisible b))

/-- The blanks that can stand in a header that is read as text. -/
theorem isBlank_byteChar {b : UInt8} (visible : isVisible b) :
    isBlank (byteChar b) ↔ b = 0x20 ∨ b = 0x09 := by
  have visible : b.toNat = 9 ∨ 32 ≤ b.toNat ∧ b.toNat < 127 := by
    simpa [isVisible, ← UInt8.toNat_inj, UInt8.le_iff_toNat_le, UInt8.lt_iff_toNat_lt] using visible
  rw [← UInt8.toNat_inj, ← UInt8.toNat_inj]
  simp [isBlank, byteChar_toNat]
  omega

namespace Request

/-- The bytes of the first header of a name. -/
def firstValue? (request : Request) (name : String) : Option (List UInt8) :=
  (request.headers.find? fun h => Ascii.alike h.1 name).map (·.2)

variable {request : Request} {name : String} {value : List UInt8}

theorem header?_absent (absent : request.firstValue? name = none) :
    request.header? name = none := by
  have none : request.headers.find? (fun h => Ascii.alike h.1 name) = none := by
    simpa [firstValue?] using absent
  simp only [header?, none]
  rfl

theorem header?_present (present : request.firstValue? name = some value) :
    request.header? name = if Readable value then some (byteText value) else none := by
  obtain ⟨first, found, rfl⟩ := Option.map_eq_some_iff.mp present
  have all : first.2.all isVisible = true ↔ Readable first.2 := List.all_eq_true
  simp only [header?, found]
  exact if_congr all rfl rfl

theorem header?_eq_some_iff {text : String} :
    request.header? name = some text ↔
      ∃ value, request.firstValue? name = some value ∧ Readable value ∧ byteText value = text := by
  cases first : request.firstValue? name with
  | none => simp [header?_absent first]
  | some value =>
    rw [header?_present first]
    by_cases readable : Readable value <;> simp [readable]

end Request

end VmAdmission.Http
