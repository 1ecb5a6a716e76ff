import Mathlib.Tactic.IntervalCases
import VmAdmission.Text.Symbol

namespace VmAdmission.Utf8

theorem toList_loop (bytes : ByteArray) (i : Nat) (done : List UInt8) :
    ByteArray.toList.loop bytes i done = done.reverse ++ bytes.data.toList.drop i := by
  fun_induction ByteArray.toList.loop bytes i done with
  | case1 i done inside ih =>
    have there : i < bytes.data.toList.length := inside
    have next : bytes.get! i = bytes.data.toList[i] := getElem!_pos bytes.data i inside
    rw [ih, List.drop_eq_getElem_cons there, next]
    simp
  | case2 i done outside =>
    have short : bytes.data.toList.length ≤ i := Nat.le_of_not_lt outside
    rw [List.drop_eq_nil_of_le short, List.append_nil]

theorem encode_eq (text : String) : encode text = text.toList.flatMap String.utf8EncodeChar := by
  have bytes : text.toUTF8.data.toList = text.toList.flatMap String.utf8EncodeChar := by
    rw [String.toUTF8_eq_toByteArray, ← String.utf8Encode_toList, List.utf8Encode]
    simp
  rw [encode, ByteArray.toList, toList_loop, bytes]
  rfl

/-- A byte after the first of a character, with the lowest bits of a number. -/
def further (n : Nat) : UInt8 :=
  .ofNat (n % 0x40 + 0x80)

theorem further_toNat (n : Nat) : (further n).toNat = n % 64 + 128 := by
  rw [further, UInt8.toNat_ofNat']
  omega

section

variable {more value n : Nat} {low high : UInt8} {taken rest : List UInt8}

theorem follow_within (above : low.toNat ≤ n % 64 + 128) (below : n % 64 + 128 ≤ high.toNat) :
    follow (more + 1) value low high taken (further n :: rest) =
      follow more (value * 64 + n % 64) 0x80 0xBF (taken ++ [further n]) rest := by
  have fits : low ≤ further n ∧ further n ≤ high := by
    rw [UInt8.le_iff_toNat_le, UInt8.le_iff_toNat_le, further_toNat]
    exact ⟨above, below⟩
  rw [follow, if_pos fits, further_toNat, Nat.add_sub_cancel]

/-- Every such byte may follow one that is not the first. -/
theorem follow_further :
    follow (more + 1) value 0x80 0xBF taken (further n :: rest) =
      follow more (value * 64 + n % 64) 0x80 0xBF (taken ++ [further n]) rest :=
  follow_within (Nat.le_add_left _ _)
    (Nat.add_le_add_right (Nat.le_of_lt_succ (Nat.mod_lt n (by decide : 0 < 64))) 128)

end

section

variable {b : UInt8} {bytes taken : List UInt8} {lead : Lead} {value m₁ m₂ m₃ : Nat}
  {rest : List UInt8}

theorem first_of_lead (large : ¬ b < 0x80) (promise : Lead.of? b = some lead)
    (followed : follow lead.more lead.bits lead.low lead.high [] bytes = (some value, taken)) :
    first b bytes = (.char (Char.ofNat value), taken.length) := by
  simp only [first, if_neg large, promise, followed]

theorem first_two {n : Nat} (low : 2 ≤ n) (high : n < 0x20) :
    first (.ofNat (n + 0xC0)) (further m₁ :: rest) = (.char (Char.ofNat (n * 64 + m₁ % 64)), 1) := by
  have promise : ¬ UInt8.ofNat (n + 0xC0) < 0x80 ∧
      Lead.of? (.ofNat (n + 0xC0)) = some ⟨1, n, 0x80, 0xBF⟩ := by
    interval_cases n <;> exact ⟨by decide, rfl⟩
  exact first_of_lead promise.1 promise.2 follow_further

theorem first_three {n : Nat} (bound : n < 0x10) (long : n = 0 → 0x20 ≤ m₁ % 64)
    (noSurrogate : n = 0xD → m₁ % 64 < 0x20) :
    first (.ofNat (n + 0xE0)) (further m₁ :: further m₂ :: rest) =
      (.char (Char.ofNat ((n * 64 + m₁ % 64) * 64 + m₂ % 64)), 2) := by
  have promise : ¬ UInt8.ofNat (n + 0xE0) < 0x80 ∧ Lead.of? (.ofNat (n + 0xE0)) =
      some ⟨2, n, if n = 0 then 0xA0 else 0x80, if n = 0xD then 0x9F else 0xBF⟩ := by
    interval_cases n <;> exact ⟨by decide, rfl⟩
  refine first_of_lead promise.1 promise.2 ((follow_within ?_ ?_).trans follow_further)
  · dsimp only
    split
    · exact Nat.add_le_add_right (long ‹_›) 128
    · exact Nat.le_add_left _ _
  · dsimp only
    split
    · exact Nat.add_le_add_right (Nat.le_of_lt_succ (noSurrogate ‹_›)) 128
    · exact Nat.add_le_add_right (Nat.le_of_lt_succ (Nat.mod_lt m₁ (by decide : 0 < 64))) 128

theorem first_four {n : Nat} (bound : n < 5) (long : n = 0 → 0x10 ≤ m₁ % 64)
    (last : n = 4 → m₁ % 64 < 0x10) :
    first (.ofNat (n + 0xF0)) (further m₁ :: further m₂ :: further m₃ :: rest) =
      (.char (Char.ofNat (((n * 64 + m₁ % 64) * 64 + m₂ % 64) * 64 + m₃ % 64)), 3) := by
  have promise : ¬ UInt8.ofNat (n + 0xF0) < 0x80 ∧ Lead.of? (.ofNat (n + 0xF0)) =
      some ⟨3, n, if n = 0 then 0x90 else 0x80, if n = 4 then 0x8F else 0xBF⟩ := by
    interval_cases n <;> exact ⟨by decide, rfl⟩
  refine first_of_lead promise.1 promise.2
    (((follow_within ?_ ?_).trans follow_further).trans follow_further)
  · dsimp only
    split
    · exact Nat.add_le_add_right (long ‹_›) 128
    · exact Nat.le_add_left _ _
  · dsimp only
    split
    · exact Nat.add_le_add_right (Nat.le_of_lt_succ (last ‹_›)) 128
    · exact Nat.add_le_add_right (Nat.le_of_lt_succ (Nat.mod_lt m₁ (by decide : 0 < 64))) 128

end

/-- The first piece of the bytes of a text is its first character, with all bytes of it. -/
theorem first_encodeChar (c : Char) (rest : List UInt8) :
    ∃ b more, String.utf8EncodeChar c = b :: more ∧
      first b (more ++ rest) = (.char c, more.length) := by
  let v := c.val.toNat
  have back : Char.ofNat v = c := Char.ofNat_toNat c
  have bound : v < 0x110000 := by
    rcases c.valid with low | ⟨-, high⟩
    · exact Nat.lt_trans low (by decide)
    · exact high
  have noSurrogate : v < 0xD800 ∨ 0xDFFF < v := c.valid.imp_right And.left
  unfold String.utf8EncodeChar
  change ∃ b more, ite (v ≤ 0x7f) _ _ = _ ∧ _
  split
  · -- One byte, the character itself.
    rename_i one
    refine ⟨_, [], rfl, ?_⟩
    have same : (UInt8.ofNat v).toNat = v :=
      UInt8.toNat_ofNat_of_lt' (Nat.lt_of_le_of_lt one (by decide))
    have small : UInt8.ofNat v < 0x80 := by
      rw [UInt8.lt_iff_toNat_lt, same]
      exact Nat.lt_succ_of_le one
    rw [first, if_pos small, same, back]
    rfl
  split
  · refine ⟨_, [further v], rfl, (first_two (by omega) (by omega)).trans ?_⟩
    rw [show v / 64 % 0x20 * 64 + v % 64 = v by omega, back]
    rfl
  split
  · refine ⟨_, [further (v / 64), further v], rfl,
      (first_three (by omega) (by omega) (by omega)).trans ?_⟩
    rw [show (v / 4096 % 0x10 * 64 + v / 64 % 64) * 64 + v % 64 = v by omega, back]
    rfl
  · refine ⟨_, [further (v / 4096), further (v / 64), further v], rfl,
      (first_four (by omega) (by omega) (by omega)).trans ?_⟩
    rw [show ((v / 262144 % 0x08 * 64 + v / 4096 % 64) * 64 + v / 64 % 64) * 64 + v % 64 = v by
      omega, back]
    rfl

/-- A byte of a character is the character, or above all that are characters by themselves. -/
theorem byte_of_encodeChar {c : Char} {b : UInt8} (member : b ∈ String.utf8EncodeChar c) :
    b < 0x80 ∧ c = Char.ofNat b.toNat ∨ 0x80 ≤ b := by
  have back : Char.ofNat c.val.toNat = c := Char.ofNat_toNat c
  have above {n m : Nat} (low : 0x80 ≤ m) (high : n + m < 0x100) : 0x80 ≤ UInt8.ofNat (n + m) := by
    rw [UInt8.le_iff_toNat_le, UInt8.toNat_ofNat_of_lt' high]
    exact Nat.le_trans low (Nat.le_add_left m n)
  unfold String.utf8EncodeChar at member
  dsimp only at member
  split at member
  · rename_i one
    obtain rfl := List.mem_singleton.mp member
    have same : (UInt8.ofNat c.val.toNat).toNat = c.val.toNat :=
      UInt8.toNat_ofNat_of_lt' (Nat.lt_of_le_of_lt one (by decide))
    rw [UInt8.lt_iff_toNat_lt, same, back]
    exact .inl ⟨Nat.lt_succ_of_le one, rfl⟩
  right
  revert b member
  split
  · simp only [List.forall_mem_cons]
    exact ⟨above (by decide) (by omega), above (by decide) (by omega), nofun⟩
  split
  · simp only [List.forall_mem_cons]
    exact ⟨above (by decide) (by omega), above (by decide) (by omega),
      above (by decide) (by omega), nofun⟩
  · simp only [List.forall_mem_cons]
    exact ⟨above (by decide) (by omega), above (by decide) (by omega),
      above (by decide) (by omega), above (by decide) (by omega), nofun⟩

theorem cut_skip (skipped rest : List UInt8) (done : List Piece) :
    cut skipped.length done (skipped ++ rest) = cut 0 done rest := by
  induction skipped with
  | nil => rfl
  | cons b skipped ih => exact ih

theorem cut_encode (cs : List Char) (done : List Piece) :
    cut 0 done (cs.flatMap String.utf8EncodeChar) = done.reverse ++ cs.map .char := by
  induction cs generalizing done with
  | nil => simp [cut]
  | cons c cs ih =>
    obtain ⟨b, more, bytes, found⟩ := first_encodeChar c (cs.flatMap String.utf8EncodeChar)
    rw [List.flatMap_cons, bytes, List.cons_append, cut, found, cut_skip, ih]
    simp

theorem symbols_encode (text : String) : symbols (encode text) = Symbol.ofString text := by
  rw [symbols, pieces, encode_eq, cut_encode]
  simp [Symbol.ofString, List.flatMap_map, ← List.map_eq_flatMap]

/-- The bytes of a text are UTF-8, of just that text. -/
theorem decode?_encode (text : String) : decode? (encode text) = some text := by
  have read {char? : Symbol → Option Char} (whole : ∀ c, char? (.char c) = some c)
      (cs : List Char) : (cs.map Symbol.char).mapM char? = some cs := by
    induction cs with
    | nil => rfl
    | cons c cs ih => simp [whole, ih]
  rw [decode?, symbols_encode]
  exact (congrArg _ (read (fun _ => rfl) text.toList)).trans (congrArg some String.ofList_toList)

end VmAdmission.Utf8
