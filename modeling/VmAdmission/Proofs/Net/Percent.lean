import VmAdmission.Net.Percent
import VmAdmission.Proofs.Text.Utf8

namespace VmAdmission.Percent

theorem decode_append {bytes : List UInt8} (plain : 0x25 ∉ bytes) (rest : List UInt8) :
    decode (bytes ++ rest) = bytes ++ decode rest := by
  induction bytes with
  | nil => rfl
  | cons b bytes ih =>
    obtain ⟨other, more⟩ := not_or.mp (mt List.mem_cons.mpr plain)
    rw [List.cons_append, decode.eq_def]
    simp only [Ne.symm other, if_false, ih more, List.cons_append]

theorem decode_eq_self {bytes : List UInt8} (plain : 0x25 ∉ bytes) : decode bytes = bytes := by
  have whole := decode_append plain []
  rwa [List.append_nil, decode, List.append_nil] at whole

theorem encodeChar_plain {c : Char} (other : c ≠ '%') : 0x25 ∉ String.utf8EncodeChar c := by
  intro member
  rcases Utf8.byte_of_encodeChar member with ⟨-, rfl⟩ | high
  · exact other rfl
  · exact absurd high (by decide)

theorem decode_encode_plain {text : String} (plain : '%' ∉ text.toList) :
    decode (Utf8.encode text) = Utf8.encode text := by
  refine decode_eq_self fun member => ?_
  rw [Utf8.encode_eq] at member
  obtain ⟨c, there, byte⟩ := List.mem_flatMap.mp member
  exact encodeChar_plain (fun same => plain (same ▸ there)) byte

/-- The characters that end a segment of a path, or that begin an escape. -/
def reservedInSegment : List Char := ['/', '?', '#', '%']

/-- The characters are a spelling of the bytes as a segment of a path: a percent sign and two
hexadecimal digits in either case stand for a byte, all other characters for themselves. -/
inductive Spells : List Char → List UInt8 → Prop
  | nil : Spells [] []
  | literal {c : Char} {cs : List Char} {bytes : List UInt8} (plain : c ∉ reservedInSegment)
      (rest : Spells cs bytes) : Spells (c :: cs) (String.utf8EncodeChar c ++ bytes)
  | escape {high low : Char} {h l : Nat} {cs : List Char} {bytes : List UInt8}
      (first : Ascii.hexDigit? high = some h) (second : Ascii.hexDigit? low = some l)
      (rest : Spells cs bytes) :
      Spells ('%' :: high :: low :: cs) (UInt8.ofNat (h * 16 + l) :: bytes)

/-- A hexadecimal digit is one byte, and none of the characters that are reserved. -/
theorem hexDigit_byte {c : Char} {d : Nat} (digit : Ascii.hexDigit? c = some d) :
    ∃ b, String.utf8EncodeChar c = [b] ∧ digit? b = some (UInt8.ofNat d) ∧
      c ∉ reservedInSegment := by
  have all : ∀ n < 128, ∀ d ∈ Ascii.hexDigit? (Char.ofNat n),
      String.utf8EncodeChar (Char.ofNat n) = [UInt8.ofNat n] ∧
        digit? (UInt8.ofNat n) = some (UInt8.ofNat d) ∧ Char.ofNat n ∉ reservedInSegment := by
    decide +kernel
  have small : c.toNat < 128 := by
    have upper (last : Char) (below : c ≤ last) : c.toNat ≤ last.toNat := below
    unfold Ascii.hexDigit? at digit
    split at digit
    · exact Nat.lt_of_le_of_lt (upper '9' (And.right ‹_›)) (by decide)
    split at digit
    · exact Nat.lt_of_le_of_lt (upper 'f' (And.right ‹_›)) (by decide)
    split at digit
    · exact Nat.lt_of_le_of_lt (upper 'F' (And.right ‹_›)) (by decide)
    · cases digit
  have back : Char.ofNat c.toNat = c := Char.ofNat_toNat c
  have entry := all c.toNat small d (by rw [back]; exact digit)
  rw [back] at entry
  exact ⟨_, entry⟩

/-- A spelling of bytes is decoded to them. -/
theorem Spells.decode {cs : List Char} {bytes : List UInt8} (spells : Spells cs bytes) :
    Percent.decode (cs.flatMap String.utf8EncodeChar) = bytes := by
  induction spells with
  | nil => rfl
  | @literal c cs bytes plain rest ih =>
    have other : c ≠ '%' := by
      rintro rfl
      exact plain (by simp [reservedInSegment])
    rw [List.flatMap_cons, decode_append (encodeChar_plain other), ih]
  | @escape high low h l cs bytes first second rest ih =>
    obtain ⟨b, one, value, -⟩ := hexDigit_byte first
    obtain ⟨b', other, value', -⟩ := hexDigit_byte second
    have sign : String.utf8EncodeChar '%' = [0x25] := by decide +kernel
    simp only [List.flatMap_cons, sign, one, other, List.cons_append, List.nil_append]
    rw [Percent.decode]
    simp only [if_true, value, value', ih, UInt8.ofNat_add, UInt8.ofNat_mul]
    rfl

/-- Nothing in a spelling ends the segment. -/
theorem Spells.inside {cs : List Char} {bytes : List UInt8} (spells : Spells cs bytes) {c : Char}
    (ends : c ∈ ['/', '?', '#']) : c ∉ cs := by
  have reserved : c ∈ reservedInSegment ∧ c ≠ '%' := by
    refine ⟨?_, ?_⟩
    · simp only [reservedInSegment, List.mem_cons, List.not_mem_nil, or_false] at ends ⊢
      tauto
    · rintro rfl
      exact absurd ends (by decide)
  intro member
  induction spells with
  | nil => cases member
  | literal plain rest ih =>
    rcases List.mem_cons.mp member with rfl | later
    · exact plain reserved.1
    · exact ih later
  | escape first second rest ih =>
    obtain ⟨-, -, -, plain⟩ := hexDigit_byte first
    obtain ⟨-, -, -, plain'⟩ := hexDigit_byte second
    rcases List.mem_cons.mp member with sign | digits
    · exact reserved.2 sign
    rcases List.mem_cons.mp digits with rfl | digits
    · exact plain reserved.1
    rcases List.mem_cons.mp digits with rfl | later
    · exact plain' reserved.1
    · exact ih later

theorem Spells.append {cs more : List Char} {bytes further : List UInt8}
    (first : Spells cs bytes) (second : Spells more further) :
    Spells (cs ++ more) (bytes ++ further) := by
  induction first with
  | nil => exact second
  | literal plain rest ih =>
    rw [List.append_assoc]
    exact .literal plain ih
  | escape high low rest ih => exact .escape high low ih

theorem spells_encodeByte (b : UInt8) : Spells (encodeByte b) [b] := by
  have form : ∀ n < 256, encodeByte (UInt8.ofNat n) =
      ['%', (Nat.digitChar (n / 16)).toUpper, (Nat.digitChar (n % 16)).toUpper] := by
    decide +kernel
  have digit : ∀ d < 16, Ascii.hexDigit? (Nat.digitChar d).toUpper = some d := by decide +kernel
  have bound : b.toNat < 256 := b.toNat_lt
  have spells : Spells _ [UInt8.ofNat (b.toNat / 16 * 16 + b.toNat % 16)] :=
    .escape (digit (b.toNat / 16) (by omega)) (digit (b.toNat % 16) (by omega)) .nil
  rw [Nat.div_add_mod' b.toNat 16, ← form b.toNat bound, UInt8.ofNat_toNat] at spells
  exact spells

theorem spells_encodeBytes (bytes : List UInt8) : Spells (bytes.flatMap encodeByte) bytes := by
  induction bytes with
  | nil => exact .nil
  | cons b bytes ih => exact (spells_encodeByte b).append ih

theorem segment_of_reserved (special : Bool) : ∀ c ∈ reservedInSegment, segment special c := by
  simp [reservedInSegment, segment, path]

/-- The encoded form of a text spells it, if all characters that a segment may not have are
encoded. -/
theorem spells_encode {reserved : Char → Bool} (all : ∀ c ∈ reservedInSegment, reserved c)
    (text : String) : Spells (encode reserved text).toList (Utf8.encode text) := by
  rw [encode, String.toList_ofList, Utf8.encode_eq]
  induction text.toList with
  | nil => exact .nil
  | cons c cs ih =>
    rw [List.flatMap_cons, List.flatMap_cons]
    refine Spells.append ?_ ih
    unfold encodeChar
    split
    · rw [Utf8.encode_eq, String.toList_singleton, List.flatMap_singleton]
      exact spells_encodeBytes _
    · rename_i free
      have plain : c ∉ reservedInSegment := fun member => free (.inr (all c member))
      have one := Spells.literal plain .nil
      rwa [List.append_nil] at one

end VmAdmission.Percent
