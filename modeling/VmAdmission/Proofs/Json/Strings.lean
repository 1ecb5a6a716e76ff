import VmAdmission.Proofs.Json.Reading

namespace VmAdmission.Json

theorem hexPadded_control {n : Nat} (control : n < 0x20) :
    ∃ h₁ h₂ h₃ h₄, Ascii.hexPadded 4 n = [h₁, h₂, h₃, h₄] ∧ hexQuad? h₁ h₂ h₃ h₄ = some n := by
  have quads : ∀ n < 0x20,
      Ascii.hexPadded 4 n = ['0', '0', Nat.digitChar (n / 16), Nat.digitChar (n % 16)] ∧
      hexQuad? '0' '0' (Nat.digitChar (n / 16)) (Nat.digitChar (n % 16)) = some n := by decide
  exact ⟨_, _, _, _, quads n control⟩

/-- How a character is written: by a letter after a backslash, by its number if it is another
control character, or as itself. -/
theorem escape_forms (c : Char) :
    (∃ letter, escape c = ['\\', letter] ∧ letter ≠ 'u' ∧ letterEscape? letter = some c) ∨
    (∃ h₁ h₂ h₃ h₄, escape c = ['\\', 'u', h₁, h₂, h₃, h₄] ∧
      hexQuad? h₁ h₂ h₃ h₄ = some c.toNat ∧ c.toNat < 0x20) ∨
    (escape c = [c] ∧ c ≠ '"' ∧ c ≠ '\\' ∧ ¬ c.toNat < 0x20) := by
  by_cases lettered : c ∈ ['"', '\\', '\x08', '\x0c', '\n', '\r', '\t']
  · simp only [List.mem_cons, List.not_mem_nil, or_false] at lettered
    rcases lettered with rfl | rfl | rfl | rfl | rfl | rfl | rfl <;>
      exact .inl ⟨_, rfl, by decide, rfl⟩
  · simp only [List.mem_cons, List.not_mem_nil, or_false, not_or] at lettered
    obtain ⟨quote, backslash, b, f, n, r, t⟩ := lettered
    by_cases control : c.toNat < 0x20
    · obtain ⟨h₁, h₂, h₃, h₄, digits, named⟩ := hexPadded_control control
      refine .inr (.inl ⟨h₁, h₂, h₃, h₄, ?_, named, control⟩)
      simp only [escape, quote, backslash, b, f, n, r, t, control, if_true, if_false, digits]
      rfl
    · refine .inr (.inr ⟨?_, quote, backslash, control⟩)
      simp only [escape, quote, backslash, b, f, n, r, t, control, if_false]

theorem length_escape_pos (c : Char) : 1 ≤ (escape c).length := by
  rcases escape_forms c with ⟨_, form, _⟩ | ⟨_, _, _, _, form, _⟩ | ⟨form, _⟩ <;> simp [form]

theorem hexQuad_yields {h₁ h₂ h₃ h₄ : Char} {n : Nat} {cur : Cursor} {rest : List Symbol}
    (named : hexQuad? h₁ h₂ h₃ h₄ = some n)
    (next : cur.rest = .char h₁ :: .char h₂ :: .char h₃ :: .char h₄ :: rest) :
    Yields (hexQuad cur) n rest := by
  simp only [hexQuad, next, named]
  exact yields_ok rfl

theorem numberedEscape_yields {h₁ h₂ h₃ h₄ c : Char} {cur : Cursor} {rest : List Symbol}
    (named : hexQuad? h₁ h₂ h₃ h₄ = some c.toNat) (control : c.toNat < 0x20)
    (next : cur.rest = .char h₁ :: .char h₂ :: .char h₃ :: .char h₄ :: rest) :
    Yields (numberedEscape cur) c rest := by
  refine (hexQuad_yields named next).bind fun cur left => ?_
  have notLow : isLowSurrogate c.toNat = false := by simp [isLowSurrogate]; omega
  have notHigh : isHighSurrogate c.toNat = false := by simp [isHighSurrogate]; omega
  simp only [notLow, notHigh, Char.ofNat_toNat]
  exact yields_ok left

theorem escapeSequence_yields {c : Char} {cs : List Char} {cur : Cursor} {rest : List Symbol}
    (form : escape c = '\\' :: cs) (escaped : cs ≠ []) (next : cur.rest = cs.map .char ++ rest) :
    Yields (escapeSequence cur) c rest := by
  rcases escape_forms c with
    ⟨letter, form', notU, meant⟩ | ⟨h₁, h₂, h₃, h₄, form', named, control⟩ | ⟨form', _⟩
  · obtain rfl : cs = [letter] := by simpa [form'] using form.symm
    simp only [List.map_cons, List.map_nil, List.singleton_append] at next
    simp only [escapeSequence, next, notU, if_false, meant]
    exact yields_ok (Cursor.past_rest ..)
  · obtain rfl : cs = ['u', h₁, h₂, h₃, h₄] := by simpa [form'] using form.symm
    simp only [List.map_cons, List.map_nil, List.cons_append, List.nil_append] at next
    simp only [escapeSequence, next, if_true]
    exact numberedEscape_yields named control (Cursor.past_rest ..)
  · obtain ⟨-, rfl⟩ : c = '\\' ∧ cs = [] := by simpa [form'] using form
    exact absurd rfl escaped

theorem skipEscape_leaves {c : Char} {cs : List Char} {cur : Cursor} {rest : List Symbol}
    (form : escape c = '\\' :: cs) (escaped : cs ≠ []) (next : cur.rest = cs.map .char ++ rest) :
    Leaves (skipEscape cur) rest := by
  rcases escape_forms c with
    ⟨letter, form', notU, meant⟩ | ⟨h₁, h₂, h₃, h₄, form', named, -⟩ | ⟨form', -⟩
  · obtain rfl : cs = [letter] := by simpa [form'] using form.symm
    simp only [List.map_cons, List.map_nil, List.singleton_append] at next
    simp only [skipEscape, next, notU, if_false, meant, Option.isSome_some, if_true]
    exact leaves_ok (Cursor.past_rest ..)
  · obtain rfl : cs = ['u', h₁, h₂, h₃, h₄] := by simpa [form'] using form.symm
    simp only [List.map_cons, List.map_nil, List.cons_append, List.nil_append] at next
    simp only [skipEscape, next, if_true]
    obtain ⟨after, run, left⟩ : Yields (hexQuad (cur.past (.char 'u') _)) c.toNat rest :=
      hexQuad_yields named (Cursor.past_rest ..)
    rw [run]
    exact leaves_ok left
  · obtain ⟨-, rfl⟩ : c = '\\' ∧ cs = [] := by simpa [form'] using form
    exact absurd rfl escaped

/-- A character is written behind a backslash, or as itself, and then it ends no string. -/
theorem escape_cases (c : Char) :
    (∃ cs, cs ≠ [] ∧ escape c = '\\' :: cs) ∨
    (escape c = [c] ∧ c ≠ '"' ∧ c ≠ '\\' ∧ ¬ c.toNat < 0x20) := by
  rcases escape_forms c with ⟨_, form, _⟩ | ⟨_, _, _, _, form, _⟩ | plain
  · exact .inl ⟨_, by simp, form⟩
  · exact .inl ⟨_, by simp, form⟩
  · exact .inr plain

/-- The reader goes through the written characters of a string to its closing quote. Induction is
on the characters; one round of the budget goes for each, and one for the quote. -/
theorem stringFrom_yields {cs : List Char} {symbols : Nat} {cur : Cursor} {rest : List Symbol}
    (done : List Char) (enough : cs.length < symbols)
    (next : cur.rest = (cs.flatMap escape).map .char ++ .char '"' :: rest) :
    Yields (stringFrom symbols done none cur) (String.ofList (done.reverse ++ cs)) rest := by
  induction cs generalizing done symbols cur with
  | nil =>
    obtain ⟨symbols, rfl⟩ : ∃ k, symbols = k + 1 := Nat.exists_eq_add_one.mpr enough
    simp only [List.flatMap_nil, List.map_nil, List.nil_append] at next
    simp only [stringFrom, next, if_true, List.append_nil]
    exact yields_ok (Cursor.past_rest ..)
  | cons c cs ih =>
    obtain ⟨symbols, rfl⟩ : ∃ k, symbols = k + 1 := Nat.exists_eq_add_one.mpr (by omega)
    have further {cur : Cursor}
        (next : cur.rest = (cs.flatMap escape).map .char ++ .char '"' :: rest) :
        Yields (stringFrom symbols (c :: done) none cur)
          (String.ofList (done.reverse ++ c :: cs)) rest := by
      simpa using ih (c :: done) (by simpa using enough) next
    rcases escape_cases c with ⟨written, escaped, form⟩ | ⟨form, quote, backslash, visible⟩
    · simp only [List.flatMap_cons, form, List.map_cons, List.map_append, List.cons_append,
        List.append_assoc] at next
      have notQuote : '\\' ≠ '"' := by decide
      simp only [stringFrom, next, notQuote, if_false, if_true]
      exact (escapeSequence_yields form escaped (Cursor.past_rest ..)).bind
        fun _ left => further left
    · simp only [List.flatMap_cons, form, List.map_cons, List.cons_append,
        List.nil_append] at next
      simp only [stringFrom, next, quote, backslash, visible, if_false]
      exact further (Cursor.past_rest ..)

theorem skipString_leaves {cs : List Char} {symbols : Nat} {cur : Cursor} {rest : List Symbol}
    (enough : cs.length < symbols)
    (next : cur.rest = (cs.flatMap escape).map .char ++ .char '"' :: rest) :
    Leaves (skipString symbols cur) rest := by
  induction cs generalizing symbols cur with
  | nil =>
    obtain ⟨symbols, rfl⟩ : ∃ k, symbols = k + 1 := Nat.exists_eq_add_one.mpr enough
    simp only [List.flatMap_nil, List.map_nil, List.nil_append] at next
    simp only [skipString, next, if_true]
    exact leaves_ok (Cursor.past_rest ..)
  | cons c cs ih =>
    obtain ⟨symbols, rfl⟩ : ∃ k, symbols = k + 1 := Nat.exists_eq_add_one.mpr (by omega)
    have fewer : cs.length < symbols := by simpa using enough
    rcases escape_cases c with ⟨written, escaped, form⟩ | ⟨form, quote, backslash, visible⟩
    · simp only [List.flatMap_cons, form, List.map_cons, List.map_append, List.cons_append,
        List.append_assoc] at next
      have notQuote : '\\' ≠ '"' := by decide
      simp only [skipString, next, notQuote, if_false, if_true]
      exact (skipEscape_leaves form escaped (Cursor.past_rest ..)).andThen
        fun _ left => ih fewer left
    · simp only [List.flatMap_cons, form, List.map_cons, List.cons_append,
        List.nil_append] at next
      simp only [skipString, next, quote, backslash, visible, if_false]
      exact ih fewer (Cursor.past_rest ..)

theorem length_le_stringChars (s : String) : s.toList.length + 2 ≤ (stringChars s).length := by
  have each : ∀ cs : List Char, cs.length ≤ (cs.flatMap escape).length := by
    intro cs
    induction cs with
    | nil => simp
    | cons c cs ih =>
      have := length_escape_pos c
      simp only [List.length_cons, List.flatMap_cons, List.length_append]
      omega
  have := each s.toList
  simp only [stringChars, List.length_cons, List.length_append, List.length_nil]
  omega

theorem stringBody_yields {s : String} {budget : Budget} {cur : Cursor} {rest : List Symbol}
    (enough : (stringChars s).length ≤ budget.symbols)
    (next : cur.rest = (stringChars s).map .char ++ rest) :
    Yields (stringBody budget cur.skip) s rest := by
  have := length_le_stringChars s
  simp only [stringChars, List.map_cons, List.cons_append, List.map_append, List.append_assoc,
    List.map_nil, List.nil_append] at next
  have read := stringFrom_yields [] (by omega : s.toList.length < budget.symbols)
    (Cursor.skip_rest next)
  simpa [stringBody] using read

end VmAdmission.Json
