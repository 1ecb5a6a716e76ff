import VmAdmission.Net.UrlReader
import VmAdmission.Proofs.Http.Paths
import VmAdmission.Proofs.Json.Reading

namespace VmAdmission

open Http.Route (IsSegment)

/-- What ends a segment stays out of an encoded text if it is encoded or was not there. -/
theorem Percent.encode_inside {reserved : Char → Bool} {text : String} {c : Char}
    (ends : c ∈ ['/', '?', '#']) (absent : reserved c = true ∨ c ∉ text.toList) :
    c ∉ (encode reserved text).toList := by
  intro member
  rw [encode, String.toList_ofList] at member
  obtain ⟨d, there, stands⟩ := List.mem_flatMap.mp member
  unfold encodeChar at stands
  split at stands
  · exact (spells_encodeBytes _).inside ends stands
  · rename_i free
    cases List.mem_singleton.mp stands
    rcases absent with encoded | missing
    · exact free (.inr encoded)
    · exact missing there

/-- A text is one segment when all that would end it is encoded. -/
theorem Percent.isSegment_encode {reserved : Char → Bool} {text : String}
    (absent : ∀ c ∈ ['/', '?', '#'], reserved c = true ∨ c ∉ text.toList) :
    IsSegment (encode reserved text) where
  slash := encode_inside (by decide) (absent '/' (by decide))
  query := encode_inside (by decide) (absent '?' (by decide))
  fragment := encode_inside (by decide) (absent '#' (by decide))

theorem isSegment_empty : IsSegment "" where
  slash := List.not_mem_nil
  query := List.not_mem_nil
  fragment := List.not_mem_nil

namespace Url

section

variable {segments : List String} {part cs : List Char}

theorem path_reserves : Percent.path '?' = true ∧ Percent.path '#' = true := by
  simp [Percent.path]

/-- A part of a path adds a segment, unless it stands for dots: then a segment is removed or none
is, and an empty one is added at the end of the path. -/
theorem pathStep_cases (segments : List String) (part : List Char) (last : Bool) :
    ∃ kept added, pathStep segments part last = kept ++ added ∧
      (kept = segments ∨ kept = segments.dropLast) ∧
      (added = (if last then [""] else []) ∨
        added = [Percent.encode Percent.path (String.ofList part)]) := by
  unfold pathStep
  extract_lets name more
  split
  · exact ⟨segments.dropLast, more, rfl, .inr rfl, .inl rfl⟩
  split
  · exact ⟨segments, more, rfl, .inl rfl, .inl rfl⟩
  · exact ⟨segments, _, rfl, .inl rfl, .inr rfl⟩

theorem pathStep_ne_nil (segments : List String) (part : List Char) :
    pathStep segments part true ≠ [] := by
  obtain ⟨kept, added, form, -, more | name⟩ := pathStep_cases segments part true
  · simp [form, more]
  · simp [form, name]

theorem pathStep_segments (before : ∀ s ∈ segments, IsSegment s) (whole : '/' ∉ part)
    (last : Bool) : ∀ s ∈ pathStep segments part last, IsSegment s := by
  obtain ⟨kept, added, form, old, new⟩ := pathStep_cases segments part last
  have each : ∀ s ∈ kept, IsSegment s := by
    rcases old with rfl | rfl
    · exact before
    · exact fun s member => before s (List.dropLast_subset _ member)
  have name : IsSegment (Percent.encode Percent.path (String.ofList part)) := by
    refine Percent.isSegment_encode fun c ends => ?_
    simp only [List.mem_cons, List.not_mem_nil, or_false] at ends
    rcases ends with rfl | rfl | rfl
    · rw [String.toList_ofList]
      exact .inr whole
    · exact .inl path_reserves.1
    · exact .inl path_reserves.2
  have further : ∀ s ∈ added, IsSegment s := by
    intro s member
    rcases new with rfl | rfl
    · split at member
      · exact List.mem_singleton.mp member ▸ isSegment_empty
      · cases member
    · exact List.mem_singleton.mp member ▸ name
  rw [form]
  exact List.forall_mem_append.mpr ⟨each, further⟩

theorem pathFrom_ne_nil (special : Bool) (segments : List String) (part cs : List Char) :
    pathFrom special segments part cs ≠ [] := by
  induction cs generalizing segments part with
  | nil => exact pathStep_ne_nil _ _
  | cons c cs ih =>
    unfold pathFrom
    split
    · exact ih _ _
    · exact ih _ _

theorem pathFrom_segments (special : Bool) (before : ∀ s ∈ segments, IsSegment s)
    (whole : '/' ∉ part) : ∀ s ∈ pathFrom special segments part cs, IsSegment s := by
  induction cs generalizing segments part with
  | nil =>
    have reversed : '/' ∉ part.reverse := mt List.mem_reverse.mp whole
    exact pathStep_segments before reversed true
  | cons c cs ih =>
    unfold pathFrom
    split
    · have reversed : '/' ∉ part.reverse := mt List.mem_reverse.mp whole
      exact ih (pathStep_segments before reversed false) List.not_mem_nil
    · rename_i inside
      have other : '/' ≠ c := by
        rintro rfl
        exact inside rfl
      exact ih before (List.not_mem_cons_of_ne_of_not_mem other whole)

/-- The path of an address with a special scheme has a segment, and each segment is one. -/
theorem pathPart_special (cs : List Char) :
    pathPart true cs ≠ [] ∧ ∀ s ∈ pathPart true cs, IsSegment s := by
  have none : ∀ s ∈ ([] : List String), IsSegment s := List.forall_mem_nil _
  cases cs with
  | nil =>
    refine ⟨List.cons_ne_nil _ _, fun s member => ?_⟩
    exact List.mem_singleton.mp member ▸ isSegment_empty
  | cons c cs =>
    rw [pathPart]
    split
    · exact ⟨pathFrom_ne_nil _ _ _ _, pathFrom_segments _ none List.not_mem_nil⟩
    · exact ⟨pathFrom_ne_nil _ _ _ _, pathFrom_segments _ none List.not_mem_nil⟩

end

/-- The address is one of the web. -/
def IsWeb (url : Url) : Prop :=
  url.scheme = "http" ∨ url.scheme = "https"

variable {scheme text : String} {cs : List Char} {url : Url}

theorem IsWeb.special (web : url.IsWeb) : isSpecial url.scheme = true := by
  rcases web with http | https
  · rw [http]
    decide
  · rw [https]
    decide

variable [Domain.Reader]

theorem parseAuthority_form (read : parseAuthority scheme cs = .ok url) :
    url.scheme = scheme ∧ ∃ rest, url.path = .segments (pathPart (isSpecial scheme) rest) := by
  unfold parseAuthority at read
  simp only at read
  split at read
  · cases read
  split at read
  · cases read
  split at read
  all_goals
    obtain ⟨host, -, read⟩ := bind_ok read
    obtain ⟨⟨port, rest⟩, -, read⟩ := bind_ok read
    cases read
    exact ⟨rfl, _, rfl⟩

theorem parseFile_scheme (read : parseFile cs = .ok url) : url.scheme = "file" := by
  unfold parseFile at read
  simp only at read
  split at read
  · split at read
    · split at read
      · cases read
        rfl
      · obtain ⟨host, -, read⟩ := bind_ok read
        cases read
        rfl
    · cases read
      rfl
  · cases read
    rfl

theorem parseLoosely_scheme (read : parseLoosely scheme cs = .ok url) : url.scheme = scheme := by
  unfold parseLoosely at read
  split at read
  · exact (parseAuthority_form read).1
  · cases read
    rfl
  · cases read
    rfl

/-- An address of the web that is read has a path, of segments that each are one. -/
theorem parse_web (read : parse text = .ok url) (web : url.IsWeb) :
    ∃ segments, url.path = .segments segments ∧ segments ≠ [] ∧ ∀ s ∈ segments, IsSegment s := by
  unfold parse at read
  split at read
  · cases read
  rename_i scheme rest _
  split at read
  · rcases web with http | https
    · exact absurd ((parseFile_scheme read).symm.trans http) (by decide)
    · exact absurd ((parseFile_scheme read).symm.trans https) (by decide)
  split at read
  · rename_i special
    obtain ⟨-, path, form⟩ := parseAuthority_form read
    rw [special] at form
    exact ⟨_, form, pathPart_special path⟩
  · rename_i other
    exact absurd (parseLoosely_scheme read ▸ web.special) other

end Url

namespace UrlPath

/-- The text without tabs and line breaks. -/
def unbroken (text : String) : String :=
  String.ofList (text.toList.filter fun c => !isDropped c)

theorem unbroken_eq_self_iff {text : String} :
    unbroken text = text ↔ ∀ c ∈ text.toList, isDropped c = false := by
  have cut : unbroken text = text ↔ text.toList.filter (fun c => !isDropped c) = text.toList := by
    rw [unbroken, ← String.toList_inj, String.toList_ofList]
  simp only [cut, List.filter_eq_self, Bool.not_eq_true']

/-- The segments without a final empty one. -/
def withoutFinalEmpty (segments : List String) : List String :=
  if segments.getLast? = some "" then segments.dropLast else segments

/-- The segments that stay before those that are added: of the path of two slashes none does. -/
def front (segments : List String) : List String :=
  if segments = ["", ""] then [] else withoutFinalEmpty segments

theorem stem_popEmpty (segments : List String) : stem (popEmpty segments) = front segments := by
  unfold front withoutFinalEmpty popEmpty
  by_cases last : segments.getLast? = some ""
  · obtain ⟨before, rfl⟩ := List.getLast?_eq_some_iff.mp last
    by_cases one : before = []
    · subst one
      simp [stem]
    · have two : before ++ [""] = [""] ++ [""] ↔ before = [""] := List.append_left_inj [""]
      rw [List.singleton_append] at two
      simp [one, stem, two]
  · have other : segments ≠ [""] := by
      rintro rfl
      exact last rfl
    have others : segments ≠ ["", ""] := by
      rintro rfl
      exact last rfl
    simp [last, other, others, stem]

theorem front_eq {segments : List String} (other : segments ≠ ["", ""]) :
    front segments = withoutFinalEmpty segments :=
  if_neg other

theorem mem_of_mem_front {segments : List String} {s : String} (member : s ∈ front segments) :
    s ∈ segments := by
  unfold front withoutFinalEmpty at member
  split at member
  · cases member
  split at member
  · exact List.dropLast_subset _ member
  · exact member

/-- Only an empty segment that stands alone gives way to what is added. -/
theorem stem_of_mem {segments : List String} {name : String} (listed : name ∈ segments)
    (named : name ≠ "") : stem segments = segments := by
  refine if_neg fun alone => ?_
  rw [alone] at listed
  exact named (List.mem_singleton.mp listed)

theorem addSegment_eq (special : Bool) (segments : List String) (text : String) :
    addSegment special segments text =
      if unbroken text = "." then stem segments ++ [""]
      else if unbroken text = ".." then (stem segments).dropLast ++ [""]
      else stem segments ++ [Percent.encode (Percent.segment special) (unbroken text)] :=
  rfl

end UrlPath

end VmAdmission
