import VmAdmission.Json.ValueReader

namespace VmAdmission.Json

/-- The failure at a value of a kind that is not wanted. A scalar is read first; a container is
known by its bracket. -/
def misplaced (wanted : Wanted) (budget : Budget) (cur : Cursor) : Error :=
  match cur.rest with
  | [] => cur.fail .endInValue
  | .stray _ :: _ => cur.failNext .expectedValue
  | .char c :: _ =>
    match scalarAt? c budget cur with
    | some (.ok (value, cur)) => cur.fail (.wrongType (.scalar value) wanted)
    | some (.error e) => e
    | none =>
      if c = '[' then cur.fail (.wrongType .sequence wanted)
      else if c = '{' then cur.fail (.wrongType .map wanted)
      else cur.failNext .expectedValue

namespace Decoder

def stringFor (wanted : Wanted) : Decoder String := fun budget cur =>
  let cur := cur.blanks
  match cur.rest with
  | .char '"' :: _ => stringBody budget cur.skip
  | _ => .error (misplaced wanted budget cur)

def string : Decoder String := stringFor .string

/-- Reads a string and the value it stands for. -/
def parsed {α : Type} (wanted : Wanted) (parse : String → Except Cause α) : Decoder α :=
  fun budget cur => do
    let (s, cur) ← stringFor wanted budget cur
    match parse s with
    | .ok value => return (value, cur)
    | .error cause => throw (cur.fail cause)

def bool : Decoder Bool := fun budget cur =>
  let cur := cur.blanks
  match cur.rest with
  | .char 't' :: _ => do return (true, ← word ['r', 'u', 'e'] cur.skip)
  | .char 'f' :: _ => do return (false, ← word ['a', 'l', 's', 'e'] cur.skip)
  | _ => .error (misplaced .boolean budget cur)

def unit : Decoder Unit := fun budget cur =>
  let cur := cur.blanks
  match cur.rest with
  | .char 'n' :: _ => do return ((), ← word ['u', 'l', 'l'] cur.skip)
  | _ => .error (misplaced .unit budget cur)

def toInt64 (n : Number) : Except Cause Int64 :=
  match n with
  | .integer n =>
    if n.val < 0x8000000000000000 then .ok (Int64.ofInt n.val) else .error (.wrongInteger n .int64)
  | .double x => .error (.wrongType (.scalar (.number (.double x))) .int64)

def int64 : Decoder Int64 := fun budget cur =>
  let cur := cur.blanks
  let read (negative : Bool) (cur : Cursor) : Except Error (Int64 × Cursor) := do
    let (n, cur) ← numberBody negative cur
    match toInt64 n with
    | .ok n => return (n, cur)
    | .error cause => throw (cur.fail cause)
  match cur.rest with
  | .char c :: _ =>
    if c = '-' then read true cur.skip
    else if (Ascii.digit? c).isSome then read false cur
    else .error (misplaced .int64 budget cur)
  | _ => .error (misplaced .int64 budget cur)

def option {α : Type} (value : Decoder α) : Decoder (Option α) := fun budget cur =>
  let cur := cur.blanks
  match cur.rest with
  | .char 'n' :: _ => do return (none, ← word ['u', 'l', 'l'] cur.skip)
  | _ => do
    let (x, cur) ← value budget cur
    return (some x, cur)

/-- Reads with one level of nesting less, at a bracket that opens a container. -/
def nested {α : Type} (inside : Decoder α) : Decoder α := fun budget cur =>
  match budget.levels with
  | 0 => .error (cur.failNext .tooDeep)
  | levels + 1 => inside { budget with levels } cur

def list {α : Type} (item : Decoder α) : Decoder (List α) := fun budget cur =>
  let cur := cur.blanks
  match cur.rest with
  | .char '[' :: _ =>
    nested (fun budget cur => items (item budget) budget.symbols [] cur.skip) budget cur
  | _ => .error (misplaced .sequence budget cur)

def variantOf {α : Type} (variants : List (String × α)) (name : String) : Except Cause α :=
  match variants.lookup name with
  | some value => .ok value
  | none => .error (.unknownVariant name (variants.map (·.1)))

/-- Reads one of a few named values: its name, or an object with the name as key of `null`. -/
def enum {α : Type} (variants : List (String × α)) : Decoder α := fun budget cur =>
  let cur := cur.blanks
  match cur.rest with
  | .char '"' :: _ => parsed .variantName (variantOf variants) budget cur
  | .char '{' :: _ =>
    nested (fun budget cur => do
      let (value, cur) ← parsed .variantName (variantOf variants) budget cur.skip
      let ((), cur) ← unit budget (← colon cur)
      let cur := cur.blanks
      match cur.rest with
      | [] => throw (cur.fail .endInObject)
      | .char '}' :: _ => return (value, cur.skip)
      | _ => throw (cur.fail .expectedValue)) budget cur
  | [] => .error (cur.fail .endInValue)
  | _ => .error (cur.failNext .expectedValue)

/-- A field of a record that is being read into a draft of type `σ`. -/
structure Field (σ : Type) where
  /-- The name of the field, by which messages call it. -/
  name : String
  /-- Another name that the field is read under. -/
  otherName : Option String
  /-- An array of the fields must not end before this one. -/
  neededInArray : Bool
  /-- The draft has a value for the field. -/
  isSet : σ → Bool
  /-- Reads a value for the field. -/
  read : Decoder (σ → σ)

namespace Field

def isNamed {σ : Type} (field : Field σ) (key : String) : Bool :=
  field.name == key || field.otherName == some key

def of {σ α : Type} (name : String) (neededInArray : Bool) (get : σ → Option α)
    (set : σ → α → σ) (value : Decoder α) : Field σ where
  name
  otherName := none
  neededInArray
  isSet := fun draft => (get draft).isSome
  read := fun budget cur => do
    let (x, cur) ← value budget cur
    return (fun draft => set draft x, cur)

end Field

/-- Reads a member that is no field by skipping its value. -/
def skipMember {σ : Type} (_ : String) : Decoder (σ → σ) := fun budget cur => do
  return (id, ← skipValue budget cur)

structure Shape (σ α : Type) where
  /-- The name of the type, by which messages call it. -/
  name : String
  fields : List (Field σ)
  /-- The draft before anything is read. -/
  empty : σ
  /-- The record that a draft makes, or the name of the first field that it lacks. -/
  build : σ → Except String α
  /-- Reads the value of a member that is no field, given its key. -/
  other : String → Decoder (σ → σ) := skipMember
  /-- The record may be given as an array of its fields. -/
  fromArray : Bool := true

/-- The failure at a second member of one field. The key is behind the cursor; an object that
ends right there is taken in. -/
def duplicate (name : String) (cur : Cursor) : Error :=
  let cur := cur.blanks
  let cur := if cur.rest.head? = some (.char '}') then cur.skip else cur
  cur.fail (.duplicateField name)

/-- Reads the value of a member, given its key: the change to the draft that it makes. -/
def memberValue {σ α : Type} (shape : Shape σ α) (key : String) (draft : σ) : Decoder (σ → σ) :=
  fun budget cur => do
    match shape.fields.find? (·.isNamed key) with
    | some field =>
      if field.isSet draft then throw (duplicate field.name cur)
      field.read budget (← colon cur)
    | none => shape.other key budget (← colon cur)

/-- Reads the members of a record up to its closing brace. -/
def recordMembers {σ α : Type} (shape : Shape σ α) (budget : Budget) :
    Nat → Bool → σ → Reader σ
  | 0, _, _, cur => .error (cur.fail .endInObject)
  | symbols + 1, first, draft, cur => do
    let (more, cur) ← hasMember first cur
    if more then
      let (key, cur) ← stringBody budget cur.skip
      let (set, cur) ← memberValue shape key draft budget cur
      recordMembers shape budget symbols false (set draft) cur
    else .ok (draft, cur)

/-- Reads the fields of a record from an array, the number of those behind the cursor given. -/
def recordItems {σ : Type} (name : String) (count : Nat) (budget : Budget) :
    List (Field σ) → Nat → Bool → σ → Reader σ
  | [], _, _, draft, cur => .ok (draft, cur)
  | field :: fields, index, first, draft, cur => do
    let (more, cur) ← hasItem first cur
    if more then
      let (set, cur) ← field.read budget cur
      recordItems name count budget fields (index + 1) false (set draft) cur
    else if field.neededInArray then throw (cur.skip.fail (.tooShort index name count))
    else recordItems name count budget fields (index + 1) first draft cur

def closeArray (cur : Cursor) : Except Error Cursor :=
  let cur := cur.blanks
  match cur.rest with
  | [] => .error (cur.fail .endInList)
  | s :: rest =>
    if s = .char ']' then .ok (cur.past s rest)
    else if s = .char ',' then
      let cur := (cur.past s rest).blanks
      .error (cur.failNext
        (if cur.rest.head? = some (.char ']') then .trailingComma else .trailingCharacters))
    else .error (cur.failNext .trailingCharacters)

/-- The record that a draft makes, at the cursor after its closing bracket. -/
def finish {σ α : Type} (shape : Shape σ α) (draft : σ) : Reader α := fun cur =>
  match shape.build draft with
  | .ok value => .ok (value, cur)
  | .error name => .error (cur.fail (.missingField name))

/-- Reads a record from an object. The cursor is at the opening brace. -/
def recordObject {σ α : Type} (shape : Shape σ α) : Decoder α :=
  nested fun budget cur => do
    let (draft, cur) ← recordMembers shape budget budget.symbols true shape.empty cur.skip
    finish shape draft cur.skip

/-- Reads a record from an array. The cursor is at the opening bracket. -/
def recordArray {σ α : Type} (shape : Shape σ α) : Decoder α :=
  nested fun budget cur => do
    let (draft, cur) ←
      recordItems shape.name shape.fields.length budget shape.fields 0 true shape.empty cur.skip
    finish shape draft (← closeArray cur)

/-- Reads a record from an object, whose unknown members are skipped, or from an array of its fields
in order. -/
def record {σ α : Type} (shape : Shape σ α) : Decoder α := fun budget cur =>
  let cur := cur.blanks
  match cur.rest with
  | .char '{' :: _ => recordObject shape budget cur
  | .char '[' :: _ =>
    if shape.fromArray then recordArray shape budget cur
    else .error (misplaced (.record shape.name) budget cur)
  | _ => .error (misplaced (.record shape.name) budget cur)

end Decoder

/-- Reads a text that is one value and blanks around it. -/
def decode {α : Type} (value : Decoder α) (source : List Symbol) : Except Error α := do
  let budget : Budget := ⟨source.length + 1, maxLevels⟩
  let (x, cur) ← value budget (.start source)
  let cur := cur.blanks
  if cur.rest.isEmpty then return x
  throw (cur.failNext .trailingCharacters)

def decodeString {α : Type} (value : Decoder α) (text : String) : Except Error α :=
  decode value (Symbol.ofString text)

end VmAdmission.Json
