import VmAdmission.Proofs.Json.Records
import VmAdmission.Proofs.Json.Rereading

namespace VmAdmission.Json

mutual

/-- How many containers of the tree are inside each other. -/
def depth : Json → Nat
  | .array items => depthOfItems items + 1
  | .object members => depthOfMembers members + 1
  | _ => 0

def depthOfItems : List Json → Nat
  | [] => 0
  | item :: items => max item.depth (depthOfItems items)

def depthOfMembers : List (String × Json) → Nat
  | [] => 0
  | (_, value) :: members => max value.depth (depthOfMembers members)

end

/-- All numbers in the tree are integers of 64 bits. -/
inductive IsIntegral : Json → Prop
  | null : IsIntegral .null
  | bool (b : Bool) : IsIntegral (.bool b)
  | integer (n : WireInt) : IsIntegral (.number (.integer n))
  | string (s : String) : IsIntegral (.string s)
  | array {items : List Json} (integral : ∀ item ∈ items, IsIntegral item) :
      IsIntegral (.array items)
  | object {members : List (String × Json)} (integral : ∀ member ∈ members, IsIntegral member.2) :
      IsIntegral (.object members)

theorem Canonical.eq_of_json {a b : Canonical} (same : a.json = b.json) : a = b := by
  cases a
  cases same
  rfl

/-- Members whose keys are increasing are settled as they are. -/
theorem settle_eq_self {α : Type} {members : List (Member α)}
    (sorted : members.Pairwise fun a b => a.1 < b.1) : settle members = members := by
  have fold {members settled : List (Member α)} (sorted : members.Pairwise fun a b => a.1 < b.1)
      (below : ∀ a ∈ settled, ∀ b ∈ members, a.1 < b.1) :
      members.foldl settleStep settled = members.reverse ++ settled := by
    induction members generalizing settled with
    | nil => rfl
    | cons next members ih =>
      obtain ⟨first, rest⟩ := List.pairwise_cons.mp sorted
      have step : settleStep settled next = next :: settled := by
        cases settled with
        | nil => rfl
        | cons last earlier =>
          exact if_neg (String.ne_of_lt (below last (by simp) next (by simp)))
      have further : ∀ a ∈ next :: settled, ∀ b ∈ members, a.1 < b.1 := by
        intro a earlier b later
        rcases List.mem_cons.mp earlier with rfl | old
        · exact first b later
        · exact below a old b (by simp [later])
      rw [List.foldl_cons, step, ih rest further]
      simp
  have ordered : members.mergeSort (fun a b => decide (a.1 ≤ b.1)) = members := by
    refine List.mergeSort_of_pairwise (sorted.imp fun lt => ?_)
    exact decide_eq_true (String.not_lt.mp (String.lt_asymm lt))
  rw [settle, ordered, fold sorted (by simp)]
  simp

/-- Reading was refused because containers are nested too deep. -/
def TooDeep {α : Type} (outcome : Except Error α) : Prop :=
  ∃ e, outcome = .error e ∧ e.cause = .tooDeep

/-- The reader succeeds with the value and leaves the symbols if what it reads fits, and finds it
nested too deep otherwise. -/
def YieldsIf {α : Type} (fits : Prop) (outcome : Except Error (α × Cursor)) (x : α)
    (rest : List Symbol) : Prop :=
  (fits → Yields outcome x rest) ∧ (¬ fits → TooDeep outcome)

section

variable {α β : Type} {fits also : Prop} {outcome : Except Error (α × Cursor)} {x : α} {y : β}
  {middle rest : List Symbol} {next : α × Cursor → Except Error (β × Cursor)}

theorem TooDeep.bind {next : α → Except Error β} {outcome : Except Error α}
    (deep : TooDeep outcome) : TooDeep (outcome >>= next) := by
  obtain ⟨e, rfl, cause⟩ := deep
  exact ⟨e, rfl, cause⟩

theorem YieldsIf.of_iff (reads : YieldsIf fits outcome x rest) (same : fits ↔ also) :
    YieldsIf also outcome x rest :=
  ⟨fun fit => reads.1 (same.mpr fit), fun deep => reads.2 fun fit => deep (same.mp fit)⟩

theorem Yields.always (reads : Yields outcome x rest) (fit : fits) : YieldsIf fits outcome x rest :=
  ⟨fun _ => reads, fun deep => absurd fit deep⟩

theorem Yields.thenIf (first : Yields outcome x middle)
    (second : ∀ cur, cur.rest = middle → YieldsIf fits (next (x, cur)) y rest) :
    YieldsIf fits (outcome >>= next) y rest := by
  obtain ⟨cur, rfl, left⟩ := first
  exact second cur left

theorem Leaves.thenIf {outcome : Except Error Cursor} {next : Cursor → Except Error (β × Cursor)}
    (first : Leaves outcome middle)
    (second : ∀ cur, cur.rest = middle → YieldsIf fits (next cur) y rest) :
    YieldsIf fits (outcome >>= next) y rest := by
  obtain ⟨cur, rfl, left⟩ := first
  exact second cur left

/-- Two values in a row are read if both fit; the first that does not is the one complained
about. -/
theorem YieldsIf.andThen (first : YieldsIf fits outcome x middle)
    (second : ∀ cur, cur.rest = middle → YieldsIf also (next (x, cur)) y rest) :
    YieldsIf (fits ∧ also) (outcome >>= next) y rest := by
  refine ⟨fun fit => (first.1 fit.1).bind fun cur left => (second cur left).1 fit.2, fun deep => ?_⟩
  by_cases fit : fits
  · obtain ⟨cur, rfl, left⟩ := first.1 fit
    exact (second cur left).2 fun other => deep ⟨fit, other⟩
  · exact (first.2 fit).bind

/-- What is made of the value afterwards changes nothing else. -/
theorem YieldsIf.map {f : α → β} (reads : YieldsIf fits outcome x rest) :
    YieldsIf fits (do let (x, cur) ← outcome; return (f x, cur)) (f x) rest :=
  ⟨fun fit => (reads.1 fit).bind fun _ left => yields_ok left, fun deep => (reads.2 deep).bind⟩

end

theorem Cursor.failNext_cause (cur : Cursor) (cause : Cause) :
    (cur.failNext cause).cause = cause := by
  unfold failNext
  split <;> rfl

section

variable {cur : Cursor} {c : Char} {rest : List Symbol}

theorem hasItem_first (dark : ¬ Cursor.IsJsonBlank c) (other : c ≠ ']')
    (next : cur.rest = .char c :: rest) : Yields (hasItem true cur) true (.char c :: rest) := by
  have goesOn : Symbol.char c ≠ .char ']' := fun same => other (Symbol.char.inj same)
  simp only [hasItem, Cursor.blanks_eq next dark, next, goesOn, if_false, if_true]
  exact yields_ok next

theorem hasItem_comma (dark : ¬ Cursor.IsJsonBlank c) (other : c ≠ ']')
    (next : cur.rest = .char ',' :: .char c :: rest) :
    Yields (hasItem false cur) true (.char c :: rest) := by
  have goesOn : Symbol.char c ≠ .char ']' := fun same => other (Symbol.char.inj same)
  have notBracket : Symbol.char ',' ≠ .char ']' := by decide
  have after : (cur.past (.char ',') (.char c :: rest)).rest = .char c :: rest :=
    Cursor.past_rest ..
  simp only [hasItem, Cursor.blanks_eq next (by decide), next, notBracket, if_false,
    Bool.false_eq_true, if_true, Cursor.blanks_eq after dark, after, goesOn]
  exact yields_ok after

theorem hasItem_bracket {first : Bool} (next : cur.rest = .char ']' :: rest) :
    Yields (hasItem first cur) false (.char ']' :: rest) := by
  simp only [hasItem, Cursor.blanks_eq next (by decide), next, if_true]
  exact yields_ok next

end

section

variable {budget : Budget} {levels : Nat} {cur : Cursor} {behind rest : List Symbol}

/-- Scalars are read in the same way however many containers may be opened. -/
theorem treeFrom_scalar {c : Char} {found : Except Error (Scalar × Cursor)} (s : Scalar)
    (next : cur.rest = .char c :: behind) (dark : ¬ Cursor.IsJsonBlank c)
    (scalar : scalarAt? c budget cur = some found) (reads : Yields found s rest) :
    Yields (treeFrom budget levels cur) s.canonical rest := by
  have either : ∃ array object, treeFrom budget levels = valueWith array object budget := by
    cases levels <;> exact ⟨_, _, rfl⟩
  obtain ⟨array, object, form⟩ := either
  simp only [form, valueWith, Cursor.blanks_eq next dark, next, scalar]
  exact reads.bind fun _ left => yields_ok left

/-- A number is read without its sign. -/
theorem treeFrom_signed {n : Number} (negative : Bool) {unsigned : List Char}
    (isUnsigned : IsUnsigned unsigned)
    (reads : ∀ cur : Cursor, cur.rest = unsigned.map .char ++ rest →
      Yields (numberBody negative cur) n rest)
    (next : cur.rest = ((if negative then ['-'] else []) ++ unsigned).map .char ++ rest) :
    Yields (treeFrom budget levels cur) (.number n) rest := by
  cases negative with
  | true =>
    have first : cur.rest = .char '-' :: (unsigned.map .char ++ rest) := by simpa using next
    refine treeFrom_scalar (.number n) first (by decide) rfl ?_
    exact (reads cur.skip (Cursor.skip_rest first)).bind fun _ left => yields_ok left
  | false =>
    have next : cur.rest = unsigned.map .char ++ rest := by simpa using next
    have read := reads cur next
    obtain ⟨c, cs, form, digit⟩ : ∃ c cs, unsigned = c :: cs ∧ c.isDigit := isUnsigned.head
    simp only [form, List.map_cons, List.cons_append] at next
    have other (d : Char) (noDigit : ¬ d.isDigit) : c ≠ d := by
      rintro rfl
      exact noDigit digit
    have dark : ¬ Cursor.IsJsonBlank c := by
      rintro (blank | blank | blank | blank) <;> exact other _ (by decide) blank
    have value : (Ascii.digit? c).isSome := by
      have symbol : Ascii.digit? c = some (c.toNat - 48) := digit?_of_isDigit digit
      rw [symbol]
      rfl
    have scalar : scalarAt? c budget cur =
        some ((numberBody false cur).bind fun read => .ok (.number read.1, read.2)) := by
      simp only [scalarAt?, other 'n' (by decide), other 't' (by decide), other 'f' (by decide),
        other '"' (by decide), other '-' (by decide), if_false, value, if_true]
      rfl
    exact treeFrom_scalar (.number n) next dark scalar (read.bind fun _ left => yields_ok left)

theorem treeFrom_integer {n : WireInt} (ends : Ends rest)
    (next : cur.rest = (intChars n.val).map .char ++ rest) :
    Yields (treeFrom budget levels cur) (.number (.integer n)) rest := by
  have isUnsigned := isUnsigned_toDigits n.val.natAbs
  by_cases negative : n.val < 0
  · rw [intChars, if_pos negative] at next
    exact treeFrom_signed true isUnsigned (fun _ => numberBody_negative negative ends) next
  · rw [intChars, if_neg negative] at next
    exact treeFrom_signed false isUnsigned (fun _ => numberBody_nonneg negative ends) next

theorem treeFrom_string {s : String} (room : (stringChars s).length ≤ budget.symbols)
    (next : cur.rest = (stringChars s).map .char ++ rest) :
    Yields (treeFrom budget levels cur) (.string s) rest := by
  have read := stringBody_yields room next
  have first : cur.rest = .char '"' ::
      ((s.toList.flatMap escape ++ ['"']).map .char ++ rest) := by simpa [stringChars] using next
  exact treeFrom_scalar (.string s) first (by decide) rfl
    (read.bind fun _ left => yields_ok left)

theorem treeFrom_array (next : cur.rest = .char '[' :: behind) :
    treeFrom budget (levels + 1) cur = do
      let (xs, cur) ← items (treeFrom budget levels) budget.symbols [] cur.skip
      return (.array xs, cur) := by
  simp only [treeFrom, valueWith, Cursor.blanks_eq next (by decide), next]
  rfl

theorem treeFrom_object (next : cur.rest = .char '{' :: behind) :
    treeFrom budget (levels + 1) cur = do
      let (ms, cur) ← membersOf (treeFrom budget levels) budget budget.symbols [] cur.skip
      return (.object ms, cur) := by
  simp only [treeFrom, valueWith, Cursor.blanks_eq next (by decide), next]
  rfl

theorem treeFrom_tooDeep {c : Char} (bracket : c = '[' ∨ c = '{')
    (next : cur.rest = .char c :: behind) : TooDeep (treeFrom budget 0 cur) := by
  refine ⟨cur.failNext .tooDeep, ?_, Cursor.failNext_cause ..⟩
  rcases bracket with rfl | rfl
  · simp only [treeFrom, valueWith, Cursor.blanks_eq next (by decide), next]
    rfl
  · simp only [treeFrom, valueWith, Cursor.blanks_eq next (by decide), next]
    rfl

end

/-- The members with their values known to be canonical. -/
def canonicalMembers (members : List (String × Json))
    (canonical : ∀ member ∈ members, IsCanonical member.2) : List (Member Canonical) :=
  members.pmap (fun member known => (member.1, ⟨member.2, known⟩)) canonical

/-- The items known to be canonical. -/
def canonicalItems (items : List Json) (canonical : ∀ item ∈ items, IsCanonical item) :
    List Canonical :=
  items.pmap Canonical.mk canonical

theorem array_canonicalItems {items : List Json} (whole : IsCanonical (.array items))
    (canonical : ∀ item ∈ items, IsCanonical item) :
    Canonical.array (canonicalItems items canonical) = ⟨.array items, whole⟩ := by
  refine Canonical.eq_of_json (congrArg Json.array ?_)
  simp [canonicalItems, List.map_pmap]

theorem object_canonicalMembers {members : List (String × Json)}
    (whole : IsCanonical (.object members))
    (canonical : ∀ member ∈ members, IsCanonical member.2) :
    Canonical.object (canonicalMembers members canonical) = ⟨.object members, whole⟩ := by
  have back : (canonicalMembers members canonical).map (fun m => (m.1, m.2.json)) = members := by
    simp [canonicalMembers, List.map_pmap]
  have sorted : (canonicalMembers members canonical).Pairwise fun a b => a.1 < b.1 := by
    cases whole with
    | object sorted =>
      rw [← back, List.pairwise_map] at sorted
      exact sorted
  refine Canonical.eq_of_json (congrArg Json.object ?_)
  rw [settle_eq_self sorted, back]

section

variable {α : Type} {fits also : Prop} {item : Reader α} {budget : Budget} {symbols : Nat}
  {done xs : List α} {x : α} {cur : Cursor} {middle rest : List Symbol}

theorem items_end (next : cur.rest = .char ']' :: rest) :
    Yields (items item (symbols + 1) done cur) done.reverse rest :=
  (hasItem_bracket next).bind fun _ left => yields_ok (Cursor.skip_rest left)

theorem items_round {start : List Symbol}
    (goesOn : Yields (hasItem done.isEmpty cur) true start)
    (reads : ∀ cur, cur.rest = start → YieldsIf fits (item cur) x middle)
    (further : ∀ cur, cur.rest = middle → YieldsIf also (items item symbols (x :: done) cur) xs rest) :
    YieldsIf (fits ∧ also) (items item (symbols + 1) done cur) xs rest :=
  goesOn.thenIf fun cur left => (reads cur left).andThen further

variable {value : Reader α} {settled ms : List (Member α)}

theorem membersOf_end (next : cur.rest = .char '}' :: rest) :
    Yields (membersOf value budget (symbols + 1) settled cur) settled.reverse rest :=
  (hasMember_brace next).bind fun _ left => yields_ok (Cursor.skip_rest left)

theorem membersOf_round {key : String} {start : List Symbol}
    (room : (stringChars key).length ≤ budget.symbols)
    (goesOn : Yields (hasMember settled.isEmpty cur) true
      ((stringChars key).map .char ++ .char ':' :: start))
    (reads : ∀ cur, cur.rest = start → YieldsIf fits (value cur) x middle)
    (further : ∀ cur, cur.rest = middle →
      YieldsIf also (membersOf value budget symbols ((key, x) :: settled) cur) ms rest) :
    YieldsIf (fits ∧ also) (membersOf value budget (symbols + 1) settled cur) ms rest := by
  refine goesOn.thenIf fun cur left => (stringBody_yields room left).thenIf fun cur left => ?_
  exact (colon_leaves left).thenIf fun cur left => (reads cur left).andThen further

end

theorem length_le_moreItems (items : List Json) : items.length ≤ (moreItems items).length := by
  induction items with
  | nil => exact Nat.le_refl _
  | cons item items ih =>
    simp only [moreItems_cons, List.length_cons, List.length_append]
    omega

/-- Wherever the written tree stands it is read as the other one, if it fits the levels; else it is
found to be nested too deep. -/
def ReadsAs (j : Json) (c : Canonical) : Prop :=
  ∀ (budget : Budget) (levels : Nat) (cur : Cursor) (rest : List Symbol),
    j.chars.length ≤ budget.symbols → Ends rest → cur.rest = j.chars.map .char ++ rest →
    YieldsIf (j.depth ≤ levels) (treeFrom budget levels cur) c rest

/-- So are the items after the first one, up to the closing bracket. -/
def ItemsReadAs (items : List Json) (cs : List Canonical) : Prop :=
  ∀ (budget : Budget) (levels symbols : Nat) (done : List Canonical) (cur : Cursor)
    (rest : List Symbol), done.isEmpty = false → items.length < symbols →
    (moreItems items).length ≤ budget.symbols →
    cur.rest = (moreItems items ++ [']']).map .char ++ rest →
    YieldsIf (depthOfItems items ≤ levels) (Json.items (treeFrom budget levels) symbols done cur)
      (done.reverse ++ cs) rest

/-- So are the members after the first one, up to the closing brace. -/
def MembersReadAs (members : List (String × Json)) (ms : List (Member Canonical)) : Prop :=
  ∀ (budget : Budget) (levels symbols : Nat) (done : List (Member Canonical)) (cur : Cursor)
    (rest : List Symbol), done.isEmpty = false → members.length < symbols →
    (moreMembers members).length ≤ budget.symbols →
    cur.rest = (moreMembers members ++ ['}']).map .char ++ rest →
    YieldsIf (depthOfMembers members ≤ levels)
      (membersOf (treeFrom budget levels) budget symbols done cur) (done.reverse ++ ms) rest

/-- So are the members of a written object, behind its opening brace. -/
def ObjectReadsAs (members : List (String × Json)) (ms : List (Member Canonical)) : Prop :=
  ∀ (budget : Budget) (levels : Nat) (cur : Cursor) (rest : List Symbol),
    (chars (.object members)).length ≤ budget.symbols →
    cur.rest = (chars (.object members)).map .char ++ rest →
    YieldsIf (depthOfMembers members ≤ levels)
      (membersOf (treeFrom budget levels) budget budget.symbols [] cur.skip) ms rest

theorem readsAs_null : ReadsAs .null .null := by
  intro budget levels cur rest room ends next
  rw [chars_null] at next
  refine Yields.always (treeFrom_scalar .null next (by decide) rfl ?_) (Nat.zero_le _)
  exact (word_leaves (Cursor.skip_rest next)).bind fun _ left => yields_ok left

theorem readsAs_bool (b : Bool) : ReadsAs (.bool b) (.bool b) := by
  intro budget levels cur rest room ends next
  cases b with
  | true =>
    rw [chars_true] at next
    refine Yields.always (treeFrom_scalar (.bool true) next (by decide) rfl ?_) (Nat.zero_le _)
    exact (word_leaves (Cursor.skip_rest next)).bind fun _ left => yields_ok left
  | false =>
    rw [chars_false] at next
    refine Yields.always (treeFrom_scalar (.bool false) next (by decide) rfl ?_) (Nat.zero_le _)
    exact (word_leaves (Cursor.skip_rest next)).bind fun _ left => yields_ok left

theorem readsAs_integer (n : WireInt) : ReadsAs (.number (.integer n)) (.number (.integer n)) := by
  intro budget levels cur rest room ends next
  rw [chars_number] at next
  exact Yields.always (treeFrom_integer ends next) (Nat.zero_le _)

theorem readsAs_double (x : Double) : ∃ n, ReadsAs (.number (.double x)) (.number n) := by
  obtain ⟨unsigned, n, form, isUnsigned, reads⟩ := x.numberBody_chars
  refine ⟨n, fun budget levels cur rest room ends next => ?_⟩
  refine Yields.always ?_ (Nat.zero_le _)
  rw [chars_number] at next
  exact treeFrom_signed _ isUnsigned (fun cur => reads cur rest ends) (form ▸ next)

theorem readsAs_string (s : String) : ReadsAs (.string s) (.string s) := by
  intro budget levels cur rest room ends next
  rw [chars_string] at next room
  exact Yields.always (treeFrom_string room next) (Nat.zero_le _)

theorem readsAs_array_nil : ReadsAs (.array []) (.array []) := by
  intro budget levels cur rest room ends next
  rw [chars_array_nil] at next room
  cases levels with
  | zero =>
    refine ⟨fun fits => absurd fits (by simp [depth]), fun _ => treeFrom_tooDeep (.inl rfl) next⟩
  | succ levels =>
    obtain ⟨symbols, enough⟩ := Nat.exists_eq_add_one.mpr (Nat.zero_lt_of_lt room)
    have empty : Yields (Json.items (treeFrom budget levels) (symbols + 1) [] cur.skip) [] rest :=
      items_end (Cursor.skip_rest next)
    rw [treeFrom_array next, enough]
    exact (empty.always (by simp [depth, depthOfItems])).map

theorem objectReadsAs_nil : ObjectReadsAs [] [] := by
  intro budget levels cur rest room next
  rw [chars_object_nil] at next room
  obtain ⟨symbols, enough⟩ := Nat.exists_eq_add_one.mpr (Nat.zero_lt_of_lt room)
  have empty : Yields (membersOf (treeFrom budget levels) budget (symbols + 1) [] cur.skip) []
      rest := membersOf_end (Cursor.skip_rest next)
  rw [enough]
  exact empty.always (by simp [depthOfMembers])

theorem readsAs_object {members : List (String × Json)} {ms : List (Member Canonical)}
    (inside : ObjectReadsAs members ms) : ReadsAs (.object members) (.object ms) := by
  intro budget levels cur rest room ends next
  obtain ⟨cs, form⟩ := chars_object members
  have text : cur.rest = .char '{' :: (cs.map .char ++ rest) := by simpa [form] using next
  cases levels with
  | zero =>
    refine ⟨fun fits => absurd fits (by simp [depth]), fun _ => treeFrom_tooDeep (.inr rfl) text⟩
  | succ levels =>
    rw [treeFrom_object text]
    exact ((inside budget levels cur rest room next).of_iff (by simp [depth])).map

theorem itemsReadAs_nil : ItemsReadAs [] [] := by
  intro budget levels symbols done cur rest begun rounds room next
  obtain ⟨symbols, rfl⟩ := Nat.exists_eq_add_one.mpr (Nat.zero_lt_of_lt rounds)
  have closed : Yields (Json.items (treeFrom budget levels) (symbols + 1) done cur) done.reverse
      rest := items_end next
  rw [List.append_nil]
  exact closed.always (Nat.zero_le levels)

theorem membersReadAs_nil : MembersReadAs [] [] := by
  intro budget levels symbols done cur rest begun rounds room next
  obtain ⟨symbols, rfl⟩ := Nat.exists_eq_add_one.mpr (Nat.zero_lt_of_lt rounds)
  have closed : Yields (membersOf (treeFrom budget levels) budget (symbols + 1) done cur)
      done.reverse rest := membersOf_end next
  rw [List.append_nil]
  exact closed.always (Nat.zero_le levels)

section

variable {item : Json} {items : List Json} {c : Canonical} {cs : List Canonical}

theorem itemsReadAs_cons (first : ReadsAs item c) (others : ItemsReadAs items cs) :
    ItemsReadAs (item :: items) (c :: cs) := by
  intro budget levels symbols done cur rest begun rounds room next
  obtain ⟨symbols, rfl⟩ := Nat.exists_eq_add_one.mpr (Nat.zero_lt_of_lt rounds)
  simp only [List.length_cons, Nat.add_lt_add_iff_right] at rounds
  simp only [moreItems_cons, List.length_cons, List.length_append] at room
  have text : cur.rest = .char ',' :: (item.chars.map .char ++
      ((moreItems items ++ [']']).map .char ++ rest)) := by simpa [moreItems_cons] using next
  obtain ⟨d, ds, form, dark, other⟩ := chars_head item
  rw [form, List.map_cons, List.cons_append] at text
  have goesOn := hasItem_comma dark other text
  rw [← List.cons_append, ← List.map_cons, ← form, ← begun] at goesOn
  have reads : YieldsIf (item.depth ≤ levels ∧ depthOfItems items ≤ levels)
      (Json.items (treeFrom budget levels) (symbols + 1) done cur) ((c :: done).reverse ++ cs)
      rest :=
    items_round goesOn
      (fun cur left => first budget levels cur _ (by omega) (ends_moreItems items rest) left)
      fun cur left => others budget levels symbols _ cur rest rfl rounds (by omega) left
  rw [List.reverse_cons, List.append_assoc] at reads
  exact reads.of_iff (by simp [depthOfItems])

/-- The first item stands behind the bracket, the others behind commas. -/
theorem readsAs_array_cons (first : ReadsAs item c) (others : ItemsReadAs items cs) :
    ReadsAs (.array (item :: items)) (.array (c :: cs)) := by
  intro budget levels cur rest room ends next
  rw [chars_array_cons] at next room
  cases levels with
  | zero =>
    refine ⟨fun fits => absurd fits (by simp [depth]), fun _ => treeFrom_tooDeep (.inl rfl) next⟩
  | succ levels =>
    have few := length_le_moreItems items
    simp only [List.length_cons, List.length_append, List.length_nil] at room
    have text : cur.rest = .char '[' :: (item.chars.map .char ++
        ((moreItems items ++ [']']).map .char ++ rest)) := by simpa using next
    obtain ⟨d, ds, form, dark, other⟩ := chars_head item
    have inside := Cursor.skip_rest text
    rw [form, List.map_cons, List.cons_append] at inside
    have goesOn := hasItem_first dark other inside
    rw [← List.cons_append, ← List.map_cons, ← form] at goesOn
    obtain ⟨symbols, enough⟩ : ∃ k, budget.symbols = k + 1 :=
      Nat.exists_eq_add_one.mpr (by omega)
    rw [treeFrom_array text, enough]
    have reads : YieldsIf (item.depth ≤ levels ∧ depthOfItems items ≤ levels)
        (Json.items (treeFrom budget levels) (symbols + 1) [] cur.skip) (c :: cs) rest :=
      items_round goesOn
        (fun cur left => first budget levels cur _ (by omega) (ends_moreItems items rest) left)
        fun cur left => others budget levels symbols [c] cur rest rfl (by omega) (by omega) left
    exact (reads.of_iff (by simp [depth, depthOfItems])).map

end

section

variable {key : String} {value : Json} {members : List (String × Json)} {c : Canonical}
  {ms : List (Member Canonical)}

theorem membersReadAs_cons (first : ReadsAs value c) (others : MembersReadAs members ms) :
    MembersReadAs ((key, value) :: members) ((key, c) :: ms) := by
  intro budget levels symbols done cur rest begun rounds room next
  obtain ⟨symbols, rfl⟩ := Nat.exists_eq_add_one.mpr (Nat.zero_lt_of_lt rounds)
  simp only [List.length_cons, Nat.add_lt_add_iff_right] at rounds
  simp only [moreMembers_cons, memberChars, List.length_cons, List.length_append] at room
  have text : cur.rest = .char ',' :: ((stringChars key).map .char ++ .char ':' ::
      (value.chars.map .char ++ ((moreMembers members ++ ['}']).map .char ++ rest))) := by
    simpa [moreMembers_cons, memberChars] using next
  have goesOn := hasMember_comma text
  rw [← begun] at goesOn
  have reads : YieldsIf (value.depth ≤ levels ∧ depthOfMembers members ≤ levels)
      (membersOf (treeFrom budget levels) budget (symbols + 1) done cur)
      (((key, c) :: done).reverse ++ ms) rest :=
    membersOf_round (by omega) goesOn
      (fun cur left => first budget levels cur _ (by omega) (ends_moreMembers members rest) left)
      fun cur left => others budget levels symbols _ cur rest rfl rounds (by omega) left
  rw [List.reverse_cons, List.append_assoc] at reads
  exact reads.of_iff (by simp [depthOfMembers])

/-- The first member stands behind the brace, the others behind commas. -/
theorem objectReadsAs_cons (first : ReadsAs value c) (others : MembersReadAs members ms) :
    ObjectReadsAs ((key, value) :: members) ((key, c) :: ms) := by
  intro budget levels cur rest room next
  rw [chars_object_cons] at next room
  have few := length_le_moreMembers members
  simp only [memberChars, List.length_cons, List.length_append, List.length_nil] at room
  have text : cur.rest = .char '{' :: ((stringChars key).map .char ++ .char ':' ::
      (value.chars.map .char ++ ((moreMembers members ++ ['}']).map .char ++ rest))) := by
    simpa [memberChars] using next
  obtain ⟨symbols, enough⟩ : ∃ k, budget.symbols = k + 1 :=
    Nat.exists_eq_add_one.mpr (by omega)
  rw [enough]
  have reads : YieldsIf (value.depth ≤ levels ∧ depthOfMembers members ≤ levels)
      (membersOf (treeFrom budget levels) budget (symbols + 1) [] cur.skip) ((key, c) :: ms)
      rest :=
    membersOf_round (by omega) (hasMember_first (Cursor.skip_rest text))
      (fun cur left => first budget levels cur _ (by omega) (ends_moreMembers members rest) left)
      fun cur left => others budget levels symbols [(key, c)] cur rest rfl (by omega) (by omega)
        left
  exact reads.of_iff (by simp [depthOfMembers])

end

mutual

/-- Every written tree is read, and as itself if its numbers are integers. -/
theorem exists_readsAs : (j : Json) → (canonical : j.IsCanonical) →
    ∃ c, (j.IsIntegral → c = ⟨j, canonical⟩) ∧ ReadsAs j c
  | .null, _ => ⟨_, fun _ => rfl, readsAs_null⟩
  | .bool b, _ => ⟨_, fun _ => rfl, readsAs_bool b⟩
  | .number (.integer n), _ => ⟨_, fun _ => rfl, readsAs_integer n⟩
  | .number (.double x), _ => by
    obtain ⟨n, reads⟩ := readsAs_double x
    refine ⟨_, fun integral => ?_, reads⟩
    cases integral
  | .string s, _ => ⟨_, fun _ => rfl, readsAs_string s⟩
  | .array [], _ => ⟨_, fun _ => rfl, readsAs_array_nil⟩
  | .array (item :: items), canonical => by
    have canonicalAll : ∀ j ∈ item :: items, IsCanonical j := by
      cases canonical with
      | array canonical => exact canonical
    obtain ⟨c, same, first⟩ := exists_readsAs item (canonicalAll item (by simp))
    obtain ⟨cs, all, others⟩ :=
      exists_itemsReadAs items fun j inside => canonicalAll j (by simp [inside])
    refine ⟨_, fun integral => ?_, readsAs_array_cons first others⟩
    cases integral with
    | array integral =>
      rw [same (integral item (by simp)), all fun j inside => integral j (by simp [inside])]
      exact array_canonicalItems canonical canonicalAll
  | .object members, canonical => by
    have canonicalAll : ∀ member ∈ members, IsCanonical member.2 := by
      cases canonical with
      | object _ canonical => exact canonical
    obtain ⟨ms, same, inside⟩ := exists_objectReadsAs members canonicalAll
    refine ⟨_, fun integral => ?_, readsAs_object inside⟩
    cases integral with
    | object integral =>
      rw [same integral]
      exact object_canonicalMembers canonical canonicalAll

theorem exists_objectReadsAs : (members : List (String × Json)) →
    (canonical : ∀ member ∈ members, IsCanonical member.2) →
    ∃ ms, ((∀ member ∈ members, IsIntegral member.2) → ms = canonicalMembers members canonical) ∧
      ObjectReadsAs members ms
  | [], _ => ⟨_, fun _ => rfl, objectReadsAs_nil⟩
  | (key, value) :: members, canonical => by
    obtain ⟨c, same, first⟩ := exists_readsAs value (canonical (key, value) (by simp))
    obtain ⟨ms, all, others⟩ :=
      exists_membersReadAs members fun m inside => canonical m (by simp [inside])
    refine ⟨_, fun integral => ?_, objectReadsAs_cons first others⟩
    rw [same (integral (key, value) (by simp)), all fun m inside => integral m (by simp [inside])]
    rfl

theorem exists_itemsReadAs : (items : List Json) →
    (canonical : ∀ item ∈ items, IsCanonical item) →
    ∃ cs, ((∀ item ∈ items, IsIntegral item) → cs = canonicalItems items canonical) ∧
      ItemsReadAs items cs
  | [], _ => ⟨_, fun _ => rfl, itemsReadAs_nil⟩
  | item :: items, canonical => by
    obtain ⟨c, same, first⟩ := exists_readsAs item (canonical item (by simp))
    obtain ⟨cs, all, others⟩ :=
      exists_itemsReadAs items fun j inside => canonical j (by simp [inside])
    refine ⟨_, fun integral => ?_, itemsReadAs_cons first others⟩
    rw [same (integral item (by simp)), all fun j inside => integral j (by simp [inside])]
    rfl

theorem exists_membersReadAs : (members : List (String × Json)) →
    (canonical : ∀ member ∈ members, IsCanonical member.2) →
    ∃ ms, ((∀ member ∈ members, IsIntegral member.2) → ms = canonicalMembers members canonical) ∧
      MembersReadAs members ms
  | [], _ => ⟨_, fun _ => rfl, membersReadAs_nil⟩
  | (key, value) :: members, canonical => by
    obtain ⟨c, same, first⟩ := exists_readsAs value (canonical (key, value) (by simp))
    obtain ⟨ms, all, others⟩ :=
      exists_membersReadAs members fun m inside => canonical m (by simp [inside])
    refine ⟨_, fun integral => ?_, membersReadAs_cons first others⟩
    rw [same (integral (key, value) (by simp)), all fun m inside => integral m (by simp [inside])]
    rfl

end

/-- A tree that fits is read, whatever numbers are in it. -/
theorem exists_tree_reads (c : Canonical) : ∃ d, ∀ budget : Budget,
    c.json.chars.length ≤ budget.symbols → c.json.depth ≤ budget.levels →
    Reads tree budget c.json d := by
  obtain ⟨d, -, reads⟩ := exists_readsAs c.json c.isCanonical
  exact ⟨d, fun budget room fits cur rest ends next =>
    (reads budget budget.levels cur rest room ends next).1 fits⟩

theorem tree_yields {j : Json} (canonical : j.IsCanonical) (integral : j.IsIntegral)
    {budget : Budget} (room : j.chars.length ≤ budget.symbols) (fits : j.depth ≤ budget.levels) :
    Reads tree budget j ⟨j, canonical⟩ := by
  obtain ⟨c, same, reads⟩ := exists_readsAs j canonical
  obtain rfl := same integral
  exact fun cur rest ends next => (reads budget budget.levels cur rest room ends next).1 fits

/-- The decoder refuses the written tree because it is nested too deep. -/
def Overflows {α : Type} (decoder : Decoder α) (budget : Budget) (j : Json) : Prop :=
  ∀ cur rest, Ends rest → cur.rest = j.chars.map .char ++ rest → TooDeep (decoder budget cur)

theorem tree_overflows {j : Json} (canonical : j.IsCanonical) {budget : Budget}
    (room : j.chars.length ≤ budget.symbols) (deep : budget.levels < j.depth) :
    Overflows tree budget j := by
  obtain ⟨c, -, reads⟩ := exists_readsAs j canonical
  exact fun cur rest ends next =>
    (reads budget budget.levels cur rest room ends next).2 (Nat.not_le.mpr deep)

theorem option_overflows {α : Type} {decoder : Decoder α} {budget : Budget} {j : Json}
    (overflows : Overflows decoder budget j) (notNull : j ≠ .null) :
    Overflows (Decoder.option decoder) budget j := by
  intro cur rest ends next
  obtain ⟨c, cs, form, dark, -⟩ := chars_head j
  have first : cur.rest = .char c :: (cs.map .char ++ rest) := by simpa [form] using next
  have other : c ≠ 'n' := by
    rintro rfl
    exact chars_ne_null notNull cs form
  simp only [Decoder.option, Cursor.blanks_eq first dark, first]
  split
  · simp_all
  · exact (overflows cur rest ends next).bind

section Shape

variable {σ α : Type} {shape : Decoder.Shape σ α} {budget : Budget} {draft draft' : σ}

/-- A field whose value is nested too deep ends the reading of the record. -/
theorem recordMembers_overflows {β : Type} {name key : String} {needed : Bool} {get : σ → Option β}
    {set : σ → β → σ} {value : Decoder β} {j : Json} {first : Bool} {symbols : Nat} {cur : Cursor}
    {middle : List Symbol}
    (field : shape.fields.find? (·.isNamed key) = some (.of name needed get set value))
    (unset : get draft = none) (overflows : Overflows value budget j)
    (room : (memberChars (key, j)).length ≤ budget.symbols) (ends : Ends middle)
    (goesOn : Yields (hasMember first cur) true ((memberChars (key, j)).map .char ++ middle)) :
    TooDeep (Decoder.recordMembers shape budget (symbols + 1) first draft cur) := by
  obtain ⟨atKey, more, left⟩ := goesOn
  have text : atKey.rest = (stringChars key).map .char ++
      .char ':' :: (j.chars.map .char ++ middle) := by simpa [memberChars] using left
  simp only [memberChars, List.length_append, List.length_cons] at room
  have short : (stringChars key).length ≤ budget.symbols := by omega
  obtain ⟨behindKey, read, left⟩ := stringBody_yields short text
  obtain ⟨behindColon, colon, left⟩ := colon_leaves left
  have free : ¬ ((Decoder.Field.of name needed get set value).isSet draft) = true := by
    simp [Decoder.Field.of, unset]
  have deep : TooDeep (Decoder.memberValue shape key draft budget behindKey) := by
    simp only [Decoder.memberValue, field, if_neg free, colon]
    exact (overflows behindColon middle ends left).bind
  simp only [Decoder.recordMembers, more, bind, Except.bind, if_true, read]
  exact deep.bind

theorem record_overflows {members : List (String × Json)} {levels : Nat}
    (open_ : budget.levels = levels + 1)
    (overflows : ∀ (cur : Cursor) (rest : List Symbol),
      cur.rest = (chars (.object members)).map .char ++ rest →
      TooDeep (Decoder.recordMembers shape { budget with levels } budget.symbols true shape.empty
        cur.skip)) :
    Overflows (Decoder.record shape) budget (.object members) := by
  intro cur rest ends next
  obtain ⟨cs, form⟩ := chars_object members
  have first : cur.rest = .char '{' :: (cs.map .char ++ rest) := by simpa [form] using next
  simp only [Decoder.record, Cursor.blanks_eq first (by decide), first, Decoder.recordObject,
    Decoder.nested, open_]
  exact (overflows cur rest next).bind

end Shape

theorem decodeString_tooDeep {α : Type} {decoder : Decoder α} {j : Json}
    (overflows : Overflows decoder ⟨j.chars.length + 1, maxLevels⟩ j) :
    TooDeep (decodeString decoder j.text) := by
  have text : Symbol.ofString j.text = j.chars.map .char := by
    simp [Symbol.ofString, Json.text]
  have bounded : (j.chars.map Symbol.char).length = j.chars.length := List.length_map _
  have read := overflows (.start (j.chars.map .char)) [] ends_nil (by simp [Cursor.start])
  simp only [decodeString, decode, text, bounded]
  exact read.bind

end VmAdmission.Json
