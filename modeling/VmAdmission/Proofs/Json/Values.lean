import VmAdmission.Proofs.Json.Trees

namespace VmAdmission.Json

/-- If the reader succeeds, then with a value that meets the condition. -/
def Gives {α : Type} (P : α → Prop) (outcome : Except Error (α × Cursor)) : Prop :=
  ∀ x after, outcome = .ok (x, after) → P x

section

variable {α β γ : Type} {P : α → Prop} {Q : β → Prop}

theorem gives_ok {x : α} {cur : Cursor} (holds : P x) : Gives P (.ok (x, cur)) := by
  rintro _ _ ⟨⟩
  exact holds

theorem gives_error (e : Error) : Gives P (.error e) := by
  rintro _ _ ⟨⟩

theorem Gives.bind {outcome : Except Error (α × Cursor)}
    {next : α × Cursor → Except Error (β × Cursor)} (first : Gives P outcome)
    (second : ∀ x cur, P x → Gives Q (next (x, cur))) : Gives Q (outcome >>= next) := by
  intro y after read
  obtain ⟨⟨x, cur⟩, begun, ended⟩ := bind_ok read
  exact second x cur (first x cur begun) y after ended

/-- The condition does not depend on the step before. -/
theorem gives_after {step : Except Error γ} {next : γ → Except Error (β × Cursor)}
    (second : ∀ x, Gives Q (next x)) : Gives Q (step >>= next) := by
  intro y after read
  obtain ⟨x, -, ended⟩ := bind_ok read
  exact second x y after ended

theorem Gives.and {P' : α → Prop} {outcome : Except Error (α × Cursor)} (gives : Gives P outcome)
    (also : Gives P' outcome) : Gives (fun x => P x ∧ P' x) outcome :=
  fun x after read => ⟨gives x after read, also x after read⟩

theorem items_give {item : Reader α} (each : ∀ cur, Gives P (item cur)) {symbols : Nat}
    {done : List α} (begun : ∀ x ∈ done, P x) (cur : Cursor) :
    Gives (fun xs => ∀ x ∈ xs, P x) (items item symbols done cur) := by
  induction symbols generalizing done cur with
  | zero => exact gives_error _
  | succ symbols ih =>
    refine gives_after fun (more, cur) => ?_
    cases more with
    | false => exact gives_ok fun x inside => begun x (List.mem_reverse.mp inside)
    | true =>
      refine (each cur).bind fun x cur holds => ih (fun y inside => ?_) cur
      rcases List.mem_cons.mp inside with rfl | before
      · exact holds
      · exact begun y before

theorem membersOf_give {value : Reader α} (each : ∀ cur, Gives P (value cur)) {budget : Budget}
    {symbols : Nat} {done : List (Member α)} (begun : ∀ m ∈ done, P m.2) (cur : Cursor) :
    Gives (fun ms => ∀ m ∈ ms, P m.2) (membersOf value budget symbols done cur) := by
  induction symbols generalizing done cur with
  | zero => exact gives_error _
  | succ symbols ih =>
    refine gives_after fun (more, cur) => ?_
    cases more with
    | false => exact gives_ok fun m inside => begun m (List.mem_reverse.mp inside)
    | true =>
      refine gives_after fun (key, cur) => gives_after fun cur => ?_
      refine (each cur).bind fun x cur holds => ih (fun m inside => ?_) cur
      rcases List.mem_cons.mp inside with rfl | before
      · exact holds
      · exact begun m before

end

theorem depthOfItems_le {items : List Json} {levels : Nat}
    (each : ∀ item ∈ items, item.depth ≤ levels) : depthOfItems items ≤ levels := by
  induction items with
  | nil => exact Nat.zero_le _
  | cons item items ih =>
    have first := each item (by simp)
    have rest := ih fun j inside => each j (by simp [inside])
    simp only [depthOfItems]
    omega

theorem depthOfMembers_le {members : List (String × Json)} {levels : Nat}
    (each : ∀ member ∈ members, member.2.depth ≤ levels) : depthOfMembers members ≤ levels := by
  induction members with
  | nil => exact Nat.zero_le _
  | cons member members ih =>
    have first := each member (by simp)
    have rest := ih fun m inside => each m (by simp [inside])
    simp only [depthOfMembers]
    omega

theorem Canonical.depth_array {items : List Canonical} {levels : Nat}
    (each : ∀ item ∈ items, item.json.depth ≤ levels) :
    (Canonical.array items).json.depth ≤ levels + 1 := by
  refine Nat.succ_le_succ (depthOfItems_le fun j inside => ?_)
  obtain ⟨item, listed, rfl⟩ := List.mem_map.mp inside
  exact each item listed

theorem Canonical.depth_object {members : List (Member Canonical)} {levels : Nat}
    (each : ∀ m ∈ members, m.2.json.depth ≤ levels) :
    (Canonical.object members).json.depth ≤ levels + 1 := by
  refine Nat.succ_le_succ (depthOfMembers_le fun j inside => ?_)
  obtain ⟨m, settled, rfl⟩ := List.mem_map.mp inside
  exact each m (mem_of_mem_settle settled)

theorem Scalar.depth_canonical (s : Scalar) : s.canonical.json.depth = 0 := by
  cases s <;> rfl

theorem valueWith_gives {P : Canonical → Prop} {array object : Reader Canonical} {budget : Budget}
    {cur : Cursor}
    (scalar : ∀ c rest found, cur.blanks.rest = .char c :: rest →
      scalarAt? c budget cur.blanks = some found → Gives (fun s => P s.canonical) found)
    (arrays : ∀ cur, Gives P (array cur)) (objects : ∀ cur, Gives P (object cur)) :
    Gives P (valueWith array object budget cur) := by
  unfold valueWith
  simp only
  split
  · exact gives_error _
  · exact gives_error _
  · rename_i c rest next
    split
    · rename_i found read
      exact (scalar c rest found next read).bind fun s cur holds => gives_ok holds
    · split
      · exact arrays _
      · split
        · exact objects _
        · exact gives_error _

/-- What is read is not nested deeper than containers may be opened. -/
theorem treeFrom_gives_depth {budget : Budget} {levels : Nat} (cur : Cursor) :
    Gives (·.json.depth ≤ levels) (treeFrom budget levels cur) := by
  have flat {levels : Nat} (found : Except Error (Scalar × Cursor)) :
      Gives (fun s => s.canonical.json.depth ≤ levels) found := by
    intro s _ _
    rw [s.depth_canonical]
    exact Nat.zero_le levels
  induction levels generalizing cur with
  | zero =>
    exact valueWith_gives (fun _ _ found _ _ => flat found) (fun _ => gives_error _)
      (fun _ => gives_error _)
  | succ levels ih =>
    refine valueWith_gives (fun _ _ found _ _ => flat found) (fun cur => ?_) (fun cur => ?_)
    · refine (items_give ih (by simp) cur.skip).bind fun xs _ each => gives_ok ?_
      exact Canonical.depth_array each
    · refine (membersOf_give ih (by simp) cur.skip).bind fun ms _ each => gives_ok ?_
      exact Canonical.depth_object each

/-- Neither the word `null` nor a string. -/
inductive Scalar.IsPlain : Scalar → Prop
  | bool (b : Bool) : IsPlain (.bool b)
  | number (n : Number) : IsPlain (.number n)

/-- The word `null` and strings are known by what they begin with. -/
theorem scalarAt?_cases {c : Char} {budget : Budget} {cur : Cursor}
    {found : Except Error (Scalar × Cursor)} (scalar : scalarAt? c budget cur = some found) :
    (c = 'n' ∧ found = (word ['u', 'l', 'l'] cur.skip).bind fun cur => .ok (.null, cur)) ∨
      (c = '"' ∧
        found = (stringBody budget cur.skip).bind fun read => .ok (.string read.1, read.2)) ∨
      (c ≠ 'n' ∧ c ≠ '"' ∧ Gives Scalar.IsPlain found) := by
  by_cases null : c = 'n'
  · subst null
    exact .inl ⟨rfl, (Option.some.inj scalar).symm⟩
  by_cases quote : c = '"'
  · subst quote
    exact .inr (.inl ⟨rfl, (Option.some.inj scalar).symm⟩)
  refine .inr (.inr ⟨null, quote, ?_⟩)
  simp only [scalarAt?, if_neg null, if_neg quote] at scalar
  split at scalar
  · cases scalar
    exact gives_after fun cur => gives_ok (.bool true)
  split at scalar
  · cases scalar
    exact gives_after fun cur => gives_ok (.bool false)
  split at scalar
  · cases scalar
    exact gives_after fun read => gives_ok (.number read.1)
  split at scalar <;> cases scalar
  exact gives_after fun read => gives_ok (.number read.1)

/-- What holds of all arrays and all objects, and of the scalars that may begin here, holds of what
is read. -/
theorem treeFrom_gives {P : Canonical → Prop} {budget : Budget} {levels : Nat} {cur : Cursor}
    (scalar : ∀ c rest found, cur.blanks.rest = .char c :: rest →
      scalarAt? c budget cur.blanks = some found → Gives (fun s => P s.canonical) found)
    (arrays : ∀ items, P (.array items)) (objects : ∀ members, P (.object members)) :
    Gives P (treeFrom budget levels cur) := by
  cases levels with
  | zero => exact valueWith_gives scalar (fun _ => gives_error _) (fun _ => gives_error _)
  | succ levels =>
    exact valueWith_gives scalar
      (fun cur => gives_after fun (xs, cur) => gives_ok (arrays xs))
      (fun cur => gives_after fun (ms, cur) => gives_ok (objects ms))

/-- Only what begins like the word `null` is read as `null`. -/
theorem treeFrom_gives_notNull {budget : Budget} {levels : Nat} {cur : Cursor}
    (other : ∀ rest, cur.blanks.rest ≠ .char 'n' :: rest) :
    Gives (·.json ≠ .null) (treeFrom budget levels cur) := by
  refine treeFrom_gives (fun c rest found next scalar => ?_) (fun _ => Json.noConfusion)
    (fun _ => Json.noConfusion)
  rcases scalarAt?_cases scalar with ⟨rfl, -⟩ | ⟨-, rfl⟩ | ⟨-, -, plain⟩
  · exact absurd next (other rest)
  · exact gives_after fun read => gives_ok Json.noConfusion
  · intro s after read
    cases plain s after read <;> exact Json.noConfusion

/-- Only what begins with a quote is read as a string. -/
theorem treeFrom_gives_notString {budget : Budget} {levels : Nat} {cur : Cursor}
    (other : ∀ rest, cur.blanks.rest ≠ .char '"' :: rest) :
    Gives (fun c => ∀ s, c.json ≠ .string s) (treeFrom budget levels cur) := by
  refine treeFrom_gives (fun c rest found next scalar => ?_) (fun _ _ => Json.noConfusion)
    (fun _ _ => Json.noConfusion)
  rcases scalarAt?_cases scalar with ⟨-, rfl⟩ | ⟨rfl, -⟩ | ⟨-, -, plain⟩
  · exact gives_after fun cur => gives_ok fun _ => Json.noConfusion
  · exact absurd next (other rest)
  · intro s after read
    cases plain s after read <;> exact fun _ => Json.noConfusion

theorem Cursor.blanks_blanks (cur : Cursor) : cur.blanks.blanks = cur.blanks := by
  have again (symbols : List Symbol) (line column : Nat) :
      (skipBlanksFrom symbols line column).blanks = skipBlanksFrom symbols line column := by
    fun_induction skipBlanksFrom symbols line column with
    | case1 _ _ _ ih => exact ih
    | case2 _ _ _ ih => exact ih
    | case3 _ _ _ ih => exact ih
    | case4 _ _ _ ih => exact ih
    | case5 _ _ _ space tab carriage newline =>
      exact skipBlanksFrom.eq_5 _ _ _ space tab carriage newline
  exact again cur.rest cur.line cur.column

/-- A tree that is there, and nested no deeper than so many levels. -/
structure Canonical.Fits (levels : Nat) (c : Canonical) : Prop where
  notNull : c.json ≠ .null
  depth : c.json.depth ≤ levels

theorem option_tree_gives {budget : Budget} (cur : Cursor) :
    Gives (fun found => ∀ c ∈ found, c.Fits budget.levels) (Decoder.option tree budget cur) := by
  unfold Decoder.option
  simp only
  split
  · exact gives_after fun cur => gives_ok (by simp)
  · rename_i other
    rw [← cur.blanks_blanks] at other
    have notNull : Gives (·.json ≠ .null) (tree budget cur.blanks) :=
      treeFrom_gives_notNull fun rest next => other rest next
    refine (notNull.and (treeFrom_gives_depth cur.blanks)).bind fun c _ holds => gives_ok ?_
    rintro _ ⟨⟩
    exact ⟨holds.1, holds.2⟩

section Shape

variable {σ α : Type} {shape : Decoder.Shape σ α} {P : σ → Prop} {budget : Budget}

/-- What is done to a draft for a member of the record keeps the condition. -/
def Keeps (P : σ → Prop) (outcome : Except Error ((σ → σ) × Cursor)) : Prop :=
  Gives (fun set => ∀ draft, P draft → P (set draft)) outcome

theorem keeps_field {β : Type} {R : β → Prop} {name : String} {needed : Bool} {get : σ → Option β}
    {set : σ → β → σ} {value : Decoder β} {cur : Cursor} (given : Gives R (value budget cur))
    (sets : ∀ draft x, R x → P draft → P (set draft x)) :
    Keeps P ((Decoder.Field.of name needed get set value).read budget cur) :=
  given.bind fun x _ holds => gives_ok fun draft => sets draft x holds

theorem keeps_any {β : Type} {name : String} {needed : Bool} {get : σ → Option β}
    {set : σ → β → σ} {value : Decoder β} {cur : Cursor}
    (sets : ∀ draft x, P draft → P (set draft x)) :
    Keeps P ((Decoder.Field.of name needed get set value).read budget cur) :=
  gives_after fun (x, _) => gives_ok fun draft => sets draft x

variable (skips : shape.other = Decoder.skipMember)
  (keeps : ∀ field ∈ shape.fields, ∀ cur, Keeps P (field.read budget cur))

include skips keeps

theorem memberValue_keeps (key : String) (draft : σ) (cur : Cursor) :
    Keeps P (Decoder.memberValue shape key draft budget cur) := by
  unfold Decoder.memberValue
  split
  · rename_i field found
    have kept := keeps field (List.mem_of_find?_eq_some found)
    simp only
    split
    · exact gives_error _
    · exact gives_after fun cur => kept cur
  · rw [skips]
    exact gives_after fun cur => gives_after fun cur => gives_ok fun draft holds => holds

theorem recordMembers_gives {symbols : Nat} {first : Bool} {draft : σ} (begun : P draft)
    (cur : Cursor) : Gives P (Decoder.recordMembers shape budget symbols first draft cur) := by
  induction symbols generalizing first draft cur with
  | zero => exact gives_error _
  | succ symbols ih =>
    refine gives_after fun (more, cur) => ?_
    cases more with
    | false => exact gives_ok begun
    | true =>
      refine gives_after fun (key, cur) => ?_
      exact (memberValue_keeps skips keeps key draft cur).bind fun set cur kept =>
        ih (kept draft begun) cur

omit skips in
theorem recordItems_gives {name : String} {count index : Nat} {fields : List (Decoder.Field σ)}
    (listed : ∀ field ∈ fields, field ∈ shape.fields) {first : Bool} {draft : σ} (begun : P draft)
    (cur : Cursor) :
    Gives P (Decoder.recordItems name count budget fields index first draft cur) := by
  induction fields generalizing index first draft cur with
  | nil => exact gives_ok begun
  | cons field fields ih =>
    have later : ∀ field ∈ fields, field ∈ shape.fields := fun f inside => listed f (by simp [inside])
    refine gives_after fun (more, cur) => ?_
    cases more with
    | true =>
      exact (keeps field (listed field (by simp)) cur).bind fun set cur kept =>
        ih later (kept draft begun) cur
    | false =>
      simp only [Bool.false_eq_true, if_false]
      split
      · exact gives_error _
      · exact ih later begun cur

end Shape

/-- A record that is read has what its drafts have: what the empty draft has and every field
keeps. -/
theorem record_gives {σ α : Type} {shape : Decoder.Shape σ α} {P : σ → Prop} {Q : α → Prop}
    {budget : Budget} {levels : Nat} (open_ : budget.levels = levels + 1)
    (skips : shape.other = Decoder.skipMember) (start : P shape.empty)
    (keeps : ∀ field ∈ shape.fields, ∀ cur, Keeps P (field.read { budget with levels } cur))
    (builds : ∀ draft x, P draft → shape.build draft = .ok x → Q x) (cur : Cursor) :
    Gives Q (Decoder.record shape budget cur) := by
  have finishes {draft : σ} (holds : P draft) (cur : Cursor) :
      Gives Q (Decoder.finish shape draft cur) := by
    unfold Decoder.finish
    split
    · rename_i x built
      exact gives_ok (builds draft x holds built)
    · exact gives_error _
  unfold Decoder.record
  simp only
  split
  · simp only [Decoder.recordObject, Decoder.nested, open_]
    exact (recordMembers_gives skips keeps start _).bind fun draft _ holds => finishes holds _
  · split
    · simp only [Decoder.recordArray, Decoder.nested, open_]
      exact (recordItems_gives keeps (fun _ => id) start _).bind fun draft _ holds =>
        gives_after fun cur => finishes holds cur
    · exact gives_error _
  · exact gives_error _

theorem decode_gives {α : Type} {P : α → Prop} {decoder : Decoder α} {source : List Symbol} {x : α}
    (gives : ∀ cur, Gives P (decoder ⟨source.length + 1, maxLevels⟩ cur))
    (decoded : decode decoder source = .ok x) : P x := by
  obtain ⟨⟨y, cur⟩, read, ended⟩ := bind_ok decoded
  have same : y = x := by
    simp only at ended
    split at ended
    · exact Except.ok.inj ended
    · cases ended
  exact same ▸ gives _ y cur read

end VmAdmission.Json
