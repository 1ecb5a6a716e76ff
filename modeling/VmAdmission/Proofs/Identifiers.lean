import Mathlib.Tactic.IntervalCases
import VmAdmission.Uuid

namespace VmAdmission

namespace Ascii

theorem hexDigit?_digitChar {d : Nat} (small : d < 16) :
    hexDigit? (Nat.digitChar d) = some d := by
  interval_cases d <;> rfl

theorem mem_hex {n : Nat} {c : Char} (member : c ∈ hex n) : ∃ d < 16, c = Nat.digitChar d := by
  induction n using Nat.strongRecOn with
  | _ n ih =>
    rw [hex, Nat.toDigits_eq_if (by decide)] at member
    split at member
    · exact ⟨n, ‹_›, List.mem_singleton.mp member⟩
    · rcases List.mem_append.mp member with front | last
      · exact ih (n / 16) (by omega) front
      · exact ⟨n % 16, Nat.mod_lt n (by decide), List.mem_singleton.mp last⟩

theorem mem_hexPadded {width n : Nat} {c : Char} (member : c ∈ hexPadded width n) :
    ∃ d < 16, c = Nat.digitChar d := by
  rcases List.mem_append.mp member with zero | digit
  · exact ⟨0, by decide, List.eq_of_mem_replicate zero⟩
  · exact mem_hex digit

theorem length_hexPadded {width n : Nat} (positive : 0 < width) (fits : n < 16 ^ width) :
    (hexPadded width n).length = width := by
  have short : (hex n).length ≤ width :=
    (Nat.length_toDigits_le_iff (by decide) positive).mpr fits
  rw [hexPadded, List.length_append, List.length_replicate, Nat.sub_add_cancel short]

end Ascii

namespace Uuid

open Ascii

theorem hexNat?_append (n : Nat) (cs ds : List Char) :
    hexNat? n (cs ++ ds) = (hexNat? n cs).bind (hexNat? · ds) := by
  induction cs generalizing n with
  | nil => rfl
  | cons c cs ih =>
    rw [List.cons_append, hexNat?, hexNat?]
    cases hexDigit? c with
    | none => rfl
    | some d => exact ih _

theorem hexNat?_hex (n : Nat) : hexNat? 0 (hex n) = some n := by
  induction n using Nat.strongRecOn with
  | _ n ih =>
    rw [hex, Nat.toDigits_eq_if (by decide)]
    split
    · simp [hexNat?, hexDigit?_digitChar ‹_›]
    · have front : hexNat? 0 (Nat.toDigits 16 (n / 16)) = some (n / 16) := ih _ (by omega)
      have last : hexDigit? (Nat.digitChar (n % 16)) = some (n % 16) :=
        hexDigit?_digitChar (Nat.mod_lt n (by decide))
      simp only [hexNat?_append, front, Option.bind_some, hexNat?, last, Option.some.injEq]
      omega

/-- Zeros in front do not change a number. -/
theorem hexNat?_hexPadded (width n : Nat) : hexNat? 0 (hexPadded width n) = some n := by
  have zeros (count : Nat) : hexNat? 0 (List.replicate count '0') = some 0 := by
    induction count with
    | zero => rfl
    | succ count ih => exact ih
  rw [hexPadded, hexNat?_append, zeros, Option.bind_some, hexNat?_hex]

theorem mem_hyphenate {sizes : List Nat} {digits : List Char} {c : Char}
    (member : c ∈ hyphenate sizes digits) : c = '-' ∨ c ∈ digits := by
  induction sizes generalizing digits with
  | nil => cases member
  | cons size sizes ih =>
    cases sizes with
    | nil => exact .inr member
    | cons next sizes =>
      rcases List.mem_append.mp member with front | rest
      · exact .inr (List.mem_of_mem_take front)
      rcases List.mem_cons.mp rest with hyphen | rest
      · exact .inl hyphen
      · exact (ih rest).imp_right List.mem_of_mem_drop

theorem mem_text {id : Uuid} {c : Char} (member : c ∈ id.text.toList) :
    c = '-' ∨ ∃ d < 16, c = Nat.digitChar d := by
  rw [text, String.toList_ofList] at member
  exact (mem_hyphenate member).imp_right mem_hexPadded

theorem grouped?_hyphenate {sizes : List Nat} {digits : List Char} (some_ : sizes ≠ [])
    (length : digits.length = sizes.sum) : grouped? sizes (hyphenate sizes digits) = some digits := by
  induction sizes generalizing digits with
  | nil => exact absurd rfl some_
  | cons size sizes ih =>
    rw [List.sum_cons] at length
    cases sizes with
    | nil => exact if_pos length
    | cons next sizes =>
      have cut : (digits.take size).length = size := by
        rw [List.length_take]
        omega
      have rest : grouped? (next :: sizes) (hyphenate (next :: sizes) (digits.drop size)) =
          some (digits.drop size) := by
        refine ih (List.cons_ne_nil _ _) ?_
        rw [List.length_drop]
        omega
      simp only [hyphenate, grouped?, List.take_left' cut, List.drop_left' cut, rest,
        Option.map_eq_map, Option.map_some, List.take_append_drop]

/-- Nothing is taken off a text that begins with a digit. -/
theorem unwrap_digit {d : Nat} (small : d < 16) (cs : List Char) :
    unwrap (Nat.digitChar d :: cs) = ⟨0, Nat.digitChar d :: cs⟩ := by
  have brace : Nat.digitChar d ≠ '{' := by interval_cases d <;> decide
  have letter : (Nat.digitChar d).toLower ≠ 'u' := by interval_cases d <;> decide
  have other : ¬ alike (String.ofList ((Nat.digitChar d :: cs).take urn.length)) urn := by
    intro same
    rw [alike, beq_iff_eq, String.toList_ofList] at same
    exact letter (List.cons.inj same).1
  rw [unwrap, if_neg (by simp [brace]), if_neg other]

theorem unwrap_hyphenate {digits : List Char} (length : digits.length = 32)
    (hex : ∀ c ∈ digits, ∃ d < 16, c = Nat.digitChar d) :
    unwrap (hyphenate groups digits) = ⟨0, hyphenate groups digits⟩ := by
  cases digits with
  | nil => cases length
  | cons c cs =>
    obtain ⟨d, small, rfl⟩ := hex c List.mem_cons_self
    exact unwrap_digit small _

/-- An identifier that is written is read back. -/
theorem parse_text (id : Uuid) : parse id.text = .ok id := by
  let digits := hexPadded 32 id.bits.toNat
  have length : digits.length = 32 :=
    length_hexPadded (by decide) (Nat.lt_of_lt_of_le id.bits.isLt (by decide))
  have grouped : grouped? groups (hyphenate groups digits) = some digits :=
    grouped?_hyphenate (by decide) length
  have named : ofDigits? digits = some id := by
    rw [ofDigits?, hexNat?_hexPadded]
    simp
  have bare : unwrap (hyphenate groups digits) = ⟨0, hyphenate groups digits⟩ :=
    unwrap_hyphenate length fun _ => mem_hexPadded
  have cs : id.text.toList = hyphenate groups digits := String.toList_ofList
  simp only [parse, cs, bare, grouped, Option.bind_some, named]

end Uuid

end VmAdmission
