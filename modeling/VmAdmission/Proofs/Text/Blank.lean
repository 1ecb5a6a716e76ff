import Mathlib.Data.List.DropRight
import VmAdmission.Text.Blank

namespace VmAdmission

/-- The second text is the first without the blanks at its ends. -/
structure TrimsTo (text rest : List Char) : Prop where
  cut : ∃ before after, text = before ++ rest ++ after ∧ (∀ c ∈ before, isBlank c) ∧
    ∀ c ∈ after, isBlank c
  first : ∀ c ∈ rest.head?, ¬ isBlank c
  last : ∀ c ∈ rest.getLast?, ¬ isBlank c

theorem trimsTo_trimChars (text : List Char) : TrimsTo text (trimChars text) := by
  have back : trimChars text = (trimStart text).rdropWhile isBlank := rfl
  have front : text.takeWhile isBlank ++ trimStart text = text := List.takeWhile_append_dropWhile
  have whole : trimChars text ++ (trimStart text).rtakeWhile isBlank = trimStart text := by
    rw [back]
    exact List.rdropWhile_append_rtakeWhile
  refine ⟨⟨text.takeWhile isBlank, (trimStart text).rtakeWhile isBlank, ?_, ?_, ?_⟩, ?_, ?_⟩
  · rw [List.append_assoc, whole, front]
  · exact fun c member => List.mem_takeWhile_imp member
  · exact fun c member => List.mem_rtakeWhile_imp member
  · intro c member
    -- What is left begins where the text without its first blanks begins.
    have same : (trimStart text).head? = some c := by
      rw [← whole, List.head?_append, Option.mem_def.mp member, Option.some_or]
    have stops := List.head?_dropWhile_not isBlank text
    rw [← trimStart, same] at stops
    simpa using stops
  · intro c member
    obtain ⟨there, same⟩ := List.mem_getLast?_eq_getLast member
    rw [same]
    exact List.rdropWhile_last_not isBlank (trimStart text) there

theorem trimChars_eq_nil_iff {text : List Char} : trimChars text = [] ↔ ∀ c ∈ text, isBlank c := by
  obtain ⟨⟨before, after, cut, early, late⟩, first, -⟩ := trimsTo_trimChars text
  constructor
  · intro empty c member
    rw [cut, empty, List.append_nil] at member
    exact (List.mem_append.mp member).elim (early c) (late c)
  · intro blank
    cases rest : trimChars text with
    | nil => rfl
    | cons c cs =>
      have there : c ∈ text := by
        rw [cut, rest]
        simp
      rw [rest] at first
      exact absurd (blank c there) (first c rfl)

theorem trimStart_append {before rest : List Char} (blank : ∀ c ∈ before, isBlank c)
    (first : ∀ c ∈ rest.head?, ¬ isBlank c) : trimStart (before ++ rest) = rest := by
  rw [trimStart, List.dropWhile_append_of_pos blank]
  cases rest with
  | nil => rfl
  | cons c cs => exact List.dropWhile_cons_of_neg (first c rfl)

/-- A text has only one form without the blanks at its ends. -/
theorem TrimsTo.eq_trimChars {text rest : List Char} (trims : TrimsTo text rest) :
    rest = trimChars text := by
  obtain ⟨⟨before, after, rfl, early, late⟩, first, last⟩ := trims
  cases rest with
  | nil =>
    refine (trimChars_eq_nil_iff.mpr fun c member => ?_).symm
    rw [List.append_nil] at member
    exact (List.mem_append.mp member).elim (early c) (late c)
  | cons c cs =>
    have front : trimStart (before ++ (c :: cs) ++ after) = c :: cs ++ after := by
      rw [List.append_assoc]
      exact trimStart_append early first
    have back : trimStart (after.reverse ++ (c :: cs).reverse) = (c :: cs).reverse := by
      refine trimStart_append (fun d member => late d (List.mem_reverse.mp member)) ?_
      rw [List.head?_reverse]
      exact last
    rw [trimChars, front, List.reverse_append, back, List.reverse_reverse]

theorem trimsTo_trimBlanks (text : String) : TrimsTo text.toList (trimBlanks text).toList := by
  rw [trimBlanks, String.toList_ofList]
  exact trimsTo_trimChars text.toList

theorem trimBlanks_eq_empty_iff {text : String} :
    trimBlanks text = "" ↔ ∀ c ∈ text.toList, isBlank c := by
  rw [← trimChars_eq_nil_iff, trimBlanks, ← String.toList_inj, String.toList_ofList]
  rfl

end VmAdmission
