import VmAdmission.Proofs.Json.Settling
import VmAdmission.Proofs.Json.Values

namespace VmAdmission.Json

/-- Reads the members of an object, as they stand there. -/
def memberList : Decoder (List (Member Canonical)) := fun budget cur =>
  let cur := cur.blanks
  match cur.rest with
  | .char '{' :: _ =>
    Decoder.nested
      (fun budget cur => membersOf (tree budget) budget budget.symbols [] cur.skip) budget cur
  | _ => .error (misplaced (.record "object") budget cur)

theorem membersOf_levels {value : Reader Canonical} (budget : Budget) (inside symbols : Nat) :
    membersOf value { budget with levels := inside } symbols = membersOf value budget symbols := by
  induction symbols with
  | zero => rfl
  | succ symbols ih =>
    funext done cur
    simp only [membersOf, ih]
    rfl

/-- How many containers may be opened matters only where it is counted. -/
theorem treeFrom_levels (budget : Budget) (inside levels : Nat) :
    treeFrom { budget with levels := inside } levels = treeFrom budget levels := by
  induction levels with
  | zero => rfl
  | succ levels ih =>
    simp only [treeFrom, ih, membersOf_levels]
    rfl

theorem tree_blanks (budget : Budget) (cur : Cursor) :
    tree budget cur.blanks = tree budget cur := by
  have blanks (array object : Reader Canonical) :
      valueWith array object budget cur.blanks = valueWith array object budget cur := by
    simp only [valueWith, Cursor.blanks_blanks]
  unfold tree
  cases budget.levels with
  | zero => exact blanks _ _
  | succ levels => exact blanks _ _

/-- The object of the members is what is read as a tree. -/
theorem memberList_tree {budget : Budget} {cur after : Cursor} {members : List (Member Canonical)}
    (read : memberList budget cur = .ok (members, after)) :
    tree budget cur = .ok (.object members, after) := by
  rw [← tree_blanks]
  unfold memberList at read
  simp only at read
  split at read
  · rename_i rest next
    obtain ⟨symbols, levels⟩ := budget
    cases levels with
    | zero => cases read
    | succ levels =>
      have alike : membersOf (treeFrom ⟨symbols, levels + 1⟩ levels) ⟨symbols, levels + 1⟩ symbols
          [] cur.blanks.skip = .ok (members, after) := by
        rw [← membersOf_levels _ levels, ← treeFrom_levels _ levels]
        exact read
      rw [tree, treeFrom_object next, alike]
      rfl
  · cases read

/-- The string that a tree is. -/
def Canonical.string? (c : Canonical) : Option String :=
  match c.json with
  | .string s => some s
  | _ => none

theorem Canonical.string?_eq_some_iff {c : Canonical} {s : String} :
    c.string? = some s ↔ c = .string s := by
  constructor
  · intro isString
    unfold string? at isString
    split at isString <;> cases isString
    rename_i form
    exact eq_of_json form
  · rintro rfl
    rfl

/-- What a tree means where `null` stands for nothing. -/
def Canonical.orNull {α : Type} (c : Canonical) (meaning : Canonical → Option α) :
    Option (Option α) :=
  match c.json with
  | .null => some none
  | _ => (meaning c).map some

theorem Canonical.orNull_of_notNull {α : Type} {meaning : Canonical → Option α} {c : Canonical}
    (notNull : c.json ≠ .null) : c.orNull meaning = (meaning c).map some := by
  unfold orNull
  split
  · exact absurd ‹_› notNull
  · rfl

theorem Canonical.orNull_eq_some_iff {α : Type} {meaning : Canonical → Option α} {c : Canonical}
    {found : Option α} (notNull : meaning .null = none) :
    c.orNull meaning = some found ↔
      (c = .null ∧ found = none) ∨ ∃ x, meaning c = some x ∧ found = some x := by
  by_cases null : c.json = .null
  · obtain rfl : c = .null := eq_of_json null
    simp [orNull, null, notNull, eq_comm]
  · have other : c ≠ .null := fun same => null (congrArg json same)
    simp [orNull_of_notNull null, other, Option.map_eq_some_iff, eq_comm]

/-- What the decoder reads is a tree that means the value. -/
def ReadsBy {α : Type} (decoder : Decoder α) (meaning : Canonical → Option α) : Prop :=
  ∀ budget cur x after, decoder budget cur = .ok (x, after) ↔
    ∃ c, tree budget cur = .ok (c, after) ∧ meaning c = some x

section

variable {budget : Budget} {cur after : Cursor} {rest : List Symbol}

theorem tree_scalar {c : Char} {found : Except Error (Scalar × Cursor)}
    (next : cur.blanks.rest = .char c :: rest)
    (scalar : scalarAt? c budget cur.blanks = some found) :
    tree budget cur = do
      let (value, cur) ← found
      return (value.canonical, cur) := by
  unfold tree
  cases budget.levels with
  | zero => simp only [treeFrom, valueWith, next, scalar]
  | succ levels => simp only [treeFrom, valueWith, next, scalar]

theorem tree_word_iff {c : Canonical} (next : cur.blanks.rest = .char 'n' :: rest) :
    tree budget cur = .ok (c, after) ↔
      c = .null ∧ word ['u', 'l', 'l'] cur.blanks.skip = .ok after := by
  rw [tree_scalar next rfl]
  constructor
  · intro read
    obtain ⟨⟨value, behind⟩, read, same⟩ := bind_ok read
    obtain ⟨behind, word, value⟩ := bind_ok read
    cases value
    cases same
    exact ⟨rfl, word⟩
  · rintro ⟨rfl, word⟩
    rw [word]
    rfl

theorem tree_quoted_iff {c : Canonical} (next : cur.blanks.rest = .char '"' :: rest) :
    tree budget cur = .ok (c, after) ↔
      ∃ s, c = .string s ∧ stringBody budget cur.blanks.skip = .ok (s, after) := by
  rw [tree_scalar next rfl]
  constructor
  · intro read
    obtain ⟨⟨value, behind⟩, read, same⟩ := bind_ok read
    obtain ⟨⟨s, behind⟩, body, value⟩ := bind_ok read
    cases value
    cases same
    exact ⟨s, rfl, body⟩
  · rintro ⟨s, rfl, body⟩
    rw [body]
    rfl

theorem readsBy_string : ReadsBy Decoder.string Canonical.string? := by
  intro budget cur s after
  simp only [Canonical.string?_eq_some_iff, exists_eq_right]
  unfold Decoder.string Decoder.stringFor
  simp only
  split
  · rename_i rest next
    rw [tree_quoted_iff next]
    constructor
    · exact fun body => ⟨s, rfl, body⟩
    · rintro ⟨_, ⟨⟩, body⟩
      exact body
  · rename_i other
    constructor
    · intro refused
      cases refused
    · exact fun read => absurd rfl (treeFrom_gives_notString other _ _ read s)

theorem readsBy_option {α : Type} {decoder : Decoder α} {meaning : Canonical → Option α}
    (reads : ReadsBy decoder meaning) :
    ReadsBy (Decoder.option decoder) (·.orNull meaning) := by
  intro budget cur found after
  unfold Decoder.option
  simp only
  split
  · rename_i rest next
    simp only [tree_word_iff next]
    constructor
    · intro read
      obtain ⟨behind, word, same⟩ := bind_ok read
      cases same
      exact ⟨.null, ⟨rfl, word⟩, rfl⟩
    · rintro ⟨_, ⟨rfl, word⟩, ⟨⟩⟩
      rw [word]
      rfl
  · rename_i other
    have begun {c : Canonical} {behind : Cursor} (read : tree budget cur = .ok (c, behind)) :
        c.json ≠ .null := treeFrom_gives_notNull other c behind read
    constructor
    · intro read
      obtain ⟨⟨x, behind⟩, body, same⟩ := bind_ok read
      cases same
      obtain ⟨c, read, means⟩ := (reads budget cur.blanks x behind).mp body
      rw [tree_blanks] at read
      refine ⟨c, read, ?_⟩
      rw [Canonical.orNull_of_notNull (begun read), means]
      rfl
    · rintro ⟨c, read, means⟩
      rw [Canonical.orNull_of_notNull (begun read)] at means
      obtain ⟨x, meant, rfl⟩ := Option.map_eq_some_iff.mp means
      rw [← tree_blanks] at read
      rw [(reads budget cur.blanks x after).mpr ⟨c, read, meant⟩]
      rfl

end

section Shape

variable {σ α : Type} {shape : Decoder.Shape σ α} {take : σ → Member Canonical → Option σ}

/-- Reading a member does to a draft what its key and its value say, and is refused if they say
nothing. -/
def Takes (shape : Decoder.Shape σ α) (take : σ → Member Canonical → Option σ) : Prop :=
  ∀ budget key draft cur draft' after,
    (∃ set, Decoder.memberValue shape key draft budget cur = .ok (set, after) ∧
        set draft = draft') ↔
      ∃ behind c, colon cur = .ok behind ∧ tree budget behind = .ok (c, after) ∧
        take draft (key, c) = some draft'

/-- A value that may be given once. -/
def once {β : Type} (meaning : Canonical → Option β) (held : Option β)
    (member : Member Canonical) : Option (Option β) :=
  if held.isSome then none else (meaning member.2).map some

theorem foldlM_once_iff {β : Type} {meaning : Canonical → Option β}
    {members : List (Member Canonical)} {held : Option β} :
    members.foldlM (once meaning) none = some held ↔
      (members = [] ∧ held = none) ∨
        ∃ key c x, members = [(key, c)] ∧ meaning c = some x ∧ held = some x := by
  match members with
  | [] => simp [eq_comm]
  | [(key, c)] => cases meant : meaning c <;> simp [once, meant, eq_comm]
  | (_, c) :: _ :: _ => cases meant : meaning c <;> simp [once, meant]

/-- A member of one field gives it a value, unless it has one. -/
theorem memberValue_field_iff {β : Type} {name key : String} {otherName : Option String}
    {needed : Bool} {value : Decoder β} {meaning : Canonical → Option β} (get : σ → Option β)
    (set : σ → β → σ)
    (known : shape.fields.find? (·.isNamed key) =
      some { Decoder.Field.of name needed get set value with otherName })
    (reads : ReadsBy value meaning) {budget : Budget} {draft draft' : σ} {cur after : Cursor} :
    (∃ change, Decoder.memberValue shape key draft budget cur = .ok (change, after) ∧
        change draft = draft') ↔
      ∃ behind c, colon cur = .ok behind ∧ tree budget behind = .ok (c, after) ∧
        get draft = none ∧ (meaning c).map (set draft) = some draft' := by
  simp only [Decoder.memberValue, known, Decoder.Field.of]
  constructor
  · rintro ⟨change, changed, rfl⟩
    cases held : get draft with
    | some x => simp [held, bind, Except.bind, throw, throwThe, MonadExceptOf.throw] at changed
    | none =>
      simp only [held, Option.isSome_none, Bool.false_eq_true, if_false] at changed
      obtain ⟨behind, colon, changed⟩ := bind_ok changed
      obtain ⟨⟨x, _⟩, valued, same⟩ := bind_ok changed
      cases same
      obtain ⟨c, tree, meant⟩ := (reads budget behind x _).mp valued
      exact ⟨behind, c, colon, tree, rfl, by rw [meant]; rfl⟩
  · rintro ⟨behind, c, colon, tree, held, changed⟩
    obtain ⟨x, meant, rfl⟩ := Option.map_eq_some_iff.mp changed
    have valued := (reads budget behind x after).mpr ⟨c, tree, meant⟩
    refine ⟨fun draft => set draft x, ?_, rfl⟩
    simp [held, colon, valued, bind, Except.bind, pure, Except.pure]

theorem membersOf_step_iff {value : Reader Canonical} {budget : Budget} {symbols : Nat}
    {done members : List (Member Canonical)} {cur after : Cursor} :
    membersOf value budget (symbols + 1) done cur = .ok (members, after) ↔
      (∃ brace, hasMember done.isEmpty cur = .ok (false, brace) ∧ members = done.reverse ∧
        after = brace.skip) ∨
      ∃ atKey key atColon atValue c atMore, hasMember done.isEmpty cur = .ok (true, atKey) ∧
        stringBody budget atKey.skip = .ok (key, atColon) ∧ colon atColon = .ok atValue ∧
        value atValue = .ok (c, atMore) ∧
        membersOf value budget symbols ((key, c) :: done) atMore = .ok (members, after) := by
  constructor
  · intro read
    obtain ⟨⟨more, atKey⟩, goesOn, read⟩ := bind_ok read
    cases more with
    | false =>
      cases read
      exact .inl ⟨atKey, goesOn, rfl, rfl⟩
    | true =>
      obtain ⟨⟨key, atColon⟩, string, read⟩ := bind_ok read
      obtain ⟨atValue, colon, read⟩ := bind_ok read
      obtain ⟨⟨c, atMore⟩, valued, others⟩ := bind_ok read
      exact .inr ⟨_, _, _, _, _, _, goesOn, string, colon, valued, others⟩
  · rintro (⟨brace, ends, rfl, rfl⟩ |
      ⟨atKey, key, atColon, atValue, c, atMore, goesOn, string, colon, valued, others⟩)
    · simp [membersOf, ends, bind, Except.bind]
    · simp [membersOf, goesOn, string, colon, valued, others, bind, Except.bind]

theorem recordMembers_step_iff {budget : Budget} {symbols : Nat} {first : Bool} {draft final : σ}
    {cur brace : Cursor} :
    Decoder.recordMembers shape budget (symbols + 1) first draft cur = .ok (final, brace) ↔
      (hasMember first cur = .ok (false, brace) ∧ final = draft) ∨
      ∃ atKey key atColon set atMore, hasMember first cur = .ok (true, atKey) ∧
        stringBody budget atKey.skip = .ok (key, atColon) ∧
        Decoder.memberValue shape key draft budget atColon = .ok (set, atMore) ∧
        Decoder.recordMembers shape budget symbols false (set draft) atMore = .ok (final, brace) := by
  constructor
  · intro read
    obtain ⟨⟨more, atKey⟩, goesOn, read⟩ := bind_ok read
    cases more with
    | false =>
      cases read
      exact .inl ⟨goesOn, rfl⟩
    | true =>
      obtain ⟨⟨key, atColon⟩, string, read⟩ := bind_ok read
      obtain ⟨⟨set, atMore⟩, valued, others⟩ := bind_ok read
      exact .inr ⟨_, _, _, _, _, goesOn, string, valued, others⟩
  · rintro (⟨ends, rfl⟩ | ⟨atKey, key, atColon, set, atMore, goesOn, string, valued, others⟩)
    · simp [Decoder.recordMembers, ends, bind, Except.bind]
    · simp [Decoder.recordMembers, goesOn, string, valued, others, bind, Except.bind]

theorem membersOf_append {value : Reader Canonical} {budget : Budget} {symbols : Nat}
    {done members : List (Member Canonical)} {cur after : Cursor}
    (read : membersOf value budget symbols done cur = .ok (members, after)) :
    ∃ more, members = done.reverse ++ more := by
  induction symbols generalizing done cur with
  | zero => cases read
  | succ symbols ih =>
    rcases membersOf_step_iff.mp read with
      ⟨_, _, rfl, _⟩ | ⟨_, key, _, _, c, _, _, _, _, _, others⟩
    · exact ⟨[], (List.append_nil _).symm⟩
    · obtain ⟨more, rfl⟩ := ih others
      exact ⟨(key, c) :: more, by simp⟩

/-- The members of a record do one after the other what they do to the draft. -/
theorem recordMembers_iff (takes : Takes shape take) {budget : Budget} {symbols : Nat}
    (done : List (Member Canonical)) {draft final : σ} {cur after : Cursor} :
    (∃ brace, Decoder.recordMembers shape budget symbols done.isEmpty draft cur =
        .ok (final, brace) ∧ brace.skip = after) ↔
      ∃ members, membersOf (tree budget) budget symbols done cur =
        .ok (done.reverse ++ members, after) ∧ members.foldlM take draft = some final := by
  induction symbols generalizing done draft cur with
  | zero => simp [Decoder.recordMembers, membersOf]
  | succ symbols ih =>
    simp only [recordMembers_step_iff, membersOf_step_iff]
    constructor
    · rintro ⟨brace, ⟨ends, rfl⟩ | ⟨atKey, key, atColon, set, atMore, goesOn, string, valued, others⟩,
        rfl⟩
      · exact ⟨[], .inl ⟨brace, ends, List.append_nil _, rfl⟩, rfl⟩
      · obtain ⟨atValue, c, colon, tree, taken⟩ :=
          (takes budget key draft atColon _ atMore).mp ⟨set, valued, rfl⟩
        obtain ⟨members, listed, folded⟩ := (ih ((key, c) :: done)).mp ⟨brace, others, rfl⟩
        refine ⟨(key, c) :: members, .inr ⟨_, _, _, _, _, _, goesOn, string, colon, tree, ?_⟩, ?_⟩
        · simpa using listed
        · simpa [List.foldlM_cons, taken] using folded
    · rintro ⟨members, ⟨brace, ends, same, rfl⟩ |
        ⟨atKey, key, atColon, atValue, c, atMore, goesOn, string, colon, tree, listed⟩, folded⟩
      · obtain rfl : members = [] := by simpa using same
        cases folded
        exact ⟨brace, .inl ⟨ends, rfl⟩, rfl⟩
      · obtain ⟨more, form⟩ := membersOf_append listed
        obtain rfl : members = (key, c) :: more := by simpa using form
        obtain ⟨next, taken, folded⟩ := Option.bind_eq_some_iff.mp folded
        obtain ⟨set, valued, rfl⟩ :=
          (takes budget key draft atColon next atMore).mpr ⟨atValue, c, colon, tree, taken⟩
        obtain ⟨brace, others, rfl⟩ := (ih ((key, c) :: done)).mpr ⟨more, form ▸ listed, folded⟩
        exact ⟨brace, .inr ⟨_, _, _, _, _, goesOn, string, valued, others⟩, rfl⟩

theorem nested_eq_ok_iff {β : Type} {inside : Decoder β} {budget : Budget} {cur after : Cursor}
    {x : β} :
    Decoder.nested inside budget cur = .ok (x, after) ↔
      ∃ levels, budget.levels = levels + 1 ∧ inside { budget with levels } cur = .ok (x, after) := by
  unfold Decoder.nested
  cases budget.levels with
  | zero => simp
  | succ levels => simp

/-- A record is read from the objects whose members make it. -/
theorem record_iff (takes : Takes shape take) (objects : shape.fromArray = false) {budget : Budget}
    {cur after : Cursor} {x : α} :
    Decoder.record shape budget cur = .ok (x, after) ↔
      ∃ members, memberList budget cur = .ok (members, after) ∧
        ∃ final, members.foldlM take shape.empty = some final ∧ shape.build final = .ok x := by
  by_cases braced : ∃ rest, cur.blanks.rest = .char '{' :: rest
  · obtain ⟨rest, next⟩ := braced
    simp only [Decoder.record, memberList, next, Decoder.recordObject, nested_eq_ok_iff]
    constructor
    · rintro ⟨levels, open_, read⟩
      obtain ⟨⟨final, brace⟩, filled, finished⟩ := bind_ok read
      obtain ⟨members, listed, folded⟩ :=
        (recordMembers_iff takes []).mp ⟨brace, filled, rfl⟩
      simp only [Decoder.finish] at finished
      split at finished <;> cases finished
      exact ⟨members, ⟨levels, open_, listed⟩, final, folded, ‹_›⟩
    · rintro ⟨members, ⟨levels, open_, listed⟩, final, folded, built⟩
      obtain ⟨brace, filled, rfl⟩ :=
        (recordMembers_iff takes []).mpr ⟨members, listed, folded⟩
      have filled : Decoder.recordMembers shape { budget with levels } budget.symbols true
          shape.empty cur.blanks.skip = .ok (final, brace) := filled
      refine ⟨levels, open_, ?_⟩
      simp [filled, bind, Except.bind, Decoder.finish, built]
  · have noRecord : ∀ e, Decoder.record shape budget cur ≠ .ok e := by
      intro e read
      unfold Decoder.record at read
      simp only [objects, Bool.false_eq_true, if_false] at read
      split at read
      · exact braced ⟨_, ‹_›⟩
      · cases read
      · cases read
    have noMembers : ∀ e, memberList budget cur ≠ .ok e := by
      intro e read
      unfold memberList at read
      simp only at read
      split at read
      · exact braced ⟨_, ‹_›⟩
      · cases read
    simp [noRecord, noMembers]

theorem decode_eq_ok_iff {decoder : Decoder α} {source : List Symbol} {x : α} :
    decode decoder source = .ok x ↔
      ∃ after, decoder ⟨source.length + 1, maxLevels⟩ (.start source) = .ok (x, after) ∧
        after.blanks.rest = [] := by
  unfold decode
  simp only
  cases decoder ⟨source.length + 1, maxLevels⟩ (.start source) with
  | error e => simp [bind, Except.bind]
  | ok read =>
    obtain ⟨y, behind⟩ := read
    by_cases ended : behind.blanks.rest = []
    · simp only [bind, Except.bind, ended, List.isEmpty_nil, if_true]
      constructor
      · rintro ⟨⟩
        exact ⟨behind, rfl, ended⟩
      · rintro ⟨after, ⟨⟩, -⟩
        rfl
    · have more : behind.blanks.rest.isEmpty = false := by simpa using ended
      simp only [bind, Except.bind, more, Bool.false_eq_true, if_false]
      constructor
      · intro refused
        cases refused
      · rintro ⟨after, ⟨⟩, done⟩
        exact absurd done ended

theorem decode_record_iff (takes : Takes shape take) (objects : shape.fromArray = false)
    {source : List Symbol} {x : α} :
    decode (.record shape) source = .ok x ↔
      ∃ members, decode memberList source = .ok members ∧
        ∃ final, members.foldlM take shape.empty = some final ∧ shape.build final = .ok x := by
  simp only [decode_eq_ok_iff, record_iff takes objects]
  constructor
  · rintro ⟨after, ⟨members, listed, made⟩, ended⟩
    exact ⟨members, ⟨after, listed, ended⟩, made⟩
  · rintro ⟨members, ⟨after, listed, ended⟩, made⟩
    exact ⟨after, ⟨members, listed, made⟩, ended⟩

end Shape

section

variable {source : List Symbol} {members : List (Member Canonical)}

theorem decode_memberList_tree (decoded : decode memberList source = .ok members) :
    decode tree source = .ok (.object members) := by
  obtain ⟨after, read, ended⟩ := decode_eq_ok_iff.mp decoded
  exact decode_eq_ok_iff.mpr ⟨after, memberList_tree read, ended⟩

/-- One level is taken by the object itself. -/
theorem memberList_gives_depth {budget : Budget} (cur : Cursor) :
    Gives (fun members => ∀ m ∈ members, m.2.json.depth < budget.levels)
      (memberList budget cur) := by
  unfold memberList
  simp only
  split
  · intro members after read m inside
    obtain ⟨levels, open_, read⟩ := nested_eq_ok_iff.mp read
    have each := membersOf_give (fun cur => treeFrom_gives_depth cur) (by simp) _ members after read
    rw [open_]
    exact Nat.lt_succ_of_le (each m inside)
  · exact gives_error _

theorem decode_memberList_depth (decoded : decode memberList source = .ok members) :
    ∀ m ∈ members, m.2.json.depth < maxLevels :=
  decode_gives memberList_gives_depth decoded

/-- The object with the members in just that order. -/
def written (members : List (Member Canonical)) : Json :=
  .object (members.map fun m => (m.1, m.2.json))

theorem canonicalMembers_written
    (canonical : ∀ m ∈ members.map (fun m => (m.1, m.2.json)), m.2.IsCanonical) :
    canonicalMembers (members.map fun m => (m.1, m.2.json)) canonical = members := by
  rw [canonicalMembers, List.pmap_map]
  exact (List.pmap_eq_map (f := id) _).trans (List.map_id _)

theorem reads_written (integral : ∀ m ∈ members, m.2.json.IsIntegral) {budget : Budget}
    {levels : Nat} (open_ : budget.levels = levels + 1)
    (fits : ∀ m ∈ members, m.2.json.depth ≤ levels)
    (room : (written members).chars.length ≤ budget.symbols) :
    Reads memberList budget (written members) members := by
  intro cur rest ends next
  have canonical : ∀ m ∈ members.map (fun m => (m.1, m.2.json)), m.2.IsCanonical := by
    simp only [List.forall_mem_map]
    exact fun m _ => m.2.isCanonical
  obtain ⟨ms, same, inside⟩ := exists_objectReadsAs _ canonical
  have shallow : depthOfMembers (members.map fun m => (m.1, m.2.json)) ≤ levels := by
    refine depthOfMembers_le ?_
    simpa only [List.forall_mem_map] using fits
  have given : ms = members := by
    rw [same (by simpa only [List.forall_mem_map] using integral), canonicalMembers_written]
  obtain ⟨cs, form⟩ := chars_object (members.map fun m => (m.1, m.2.json))
  have first : cur.rest = .char '{' :: (cs.map .char ++ rest) := by
    simpa only [written, form, List.map_cons, List.cons_append] using next
  have read := (inside { budget with levels } levels cur rest room next).1 shallow
  simp only [memberList, Cursor.blanks_eq first (by decide), first, Decoder.nested, open_]
  exact given ▸ read

theorem decode_written (integral : ∀ m ∈ members, m.2.json.IsIntegral)
    (fits : ∀ m ∈ members, m.2.json.depth < maxLevels) :
    decodeString memberList (written members).text = .ok members := by
  have levels : (Budget.mk ((written members).chars.length + 1) maxLevels).levels = 126 + 1 := rfl
  refine decodeString_text (reads_written integral levels (fun m inside => ?_) (Nat.le_succ _))
  exact Nat.le_of_lt_succ (fits m inside)

end

end VmAdmission.Json
