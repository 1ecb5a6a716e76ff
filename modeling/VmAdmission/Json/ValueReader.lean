import VmAdmission.Json.StringReader
import VmAdmission.Json.NumberReader

namespace VmAdmission.Json

def Scalar.canonical : Scalar → Canonical
  | .null => .null
  | .bool b => .bool b
  | .number n => .number n
  | .string s => .string s

/-- Reads a scalar that begins with `c`, or nothing when none does. The cursor is before `c`. -/
def scalarAt? (c : Char) (budget : Budget) (cur : Cursor) : Option (Except Error (Scalar × Cursor)) :=
  if c = 'n' then some do return (.null, ← word ['u', 'l', 'l'] cur.skip)
  else if c = 't' then some do return (.bool true, ← word ['r', 'u', 'e'] cur.skip)
  else if c = 'f' then some do return (.bool false, ← word ['a', 'l', 's', 'e'] cur.skip)
  else if c = '"' then some do
    let (s, cur) ← stringBody budget cur.skip
    return (.string s, cur)
  else if c = '-' then some do
    let (n, cur) ← numberBody true cur.skip
    return (.number n, cur)
  else if (Ascii.digit? c).isSome then some do
    let (n, cur) ← numberBody false cur
    return (.number n, cur)
  else none

/-- Whether an array goes on, and the cursor at its next item or its closing bracket. -/
def hasItem (first : Bool) (cur : Cursor) : Except Error (Bool × Cursor) :=
  let cur := cur.blanks
  match cur.rest with
  | [] => .error (cur.fail .endInList)
  | s :: rest =>
    if s = .char ']' then .ok (false, cur)
    else if first then .ok (true, cur)
    else if s = .char ',' then
      let cur := (cur.past s rest).blanks
      match cur.rest with
      | [] => .error (cur.fail .endInValue)
      | s :: _ =>
        if s = .char ']' then .error (cur.failNext .trailingComma) else .ok (true, cur)
    else .error (cur.failNext .expectedCommaOrBracket)

def hasMember (first : Bool) (cur : Cursor) : Except Error (Bool × Cursor) :=
  let cur := cur.blanks
  match cur.rest with
  | [] => .error (cur.fail .endInObject)
  | s :: rest =>
    if s = .char '}' then .ok (false, cur)
    else if first then
      if s = .char '"' then .ok (true, cur) else .error (cur.failNext .keyNotString)
    else if s = .char ',' then
      let cur := (cur.past s rest).blanks
      match cur.rest with
      | [] => .error (cur.fail .endInValue)
      | s :: _ =>
        if s = .char '"' then .ok (true, cur)
        else if s = .char '}' then .error (cur.failNext .trailingComma)
        else .error (cur.failNext .keyNotString)
    else .error (cur.failNext .expectedCommaOrBrace)

/-- Reads the items of an array up to its closing bracket: those so far, newest first. -/
def items {α : Type} (item : Reader α) : Nat → List α → Reader (List α)
  | 0, _, cur => .error (cur.fail .endInList)
  | symbols + 1, done, cur => do
    let (more, cur) ← hasItem done.isEmpty cur
    if more then
      let (x, cur) ← item cur
      items item symbols (x :: done) cur
    else .ok (done.reverse, cur.skip)

def membersOf {α : Type} (value : Reader α) (budget : Budget) :
    Nat → List (Member α) → Reader (List (Member α))
  | 0, _, cur => .error (cur.fail .endInObject)
  | symbols + 1, done, cur => do
    let (more, cur) ← hasMember done.isEmpty cur
    if more then
      let (key, cur) ← stringBody budget cur.skip
      let cur ← colon cur
      let (x, cur) ← value cur
      membersOf value budget symbols ((key, x) :: done) cur
    else .ok (done.reverse, cur.skip)

/-- Reads a value, given how to read the rest of an array and of an object. -/
def valueWith (array object : Reader Canonical) (budget : Budget) : Reader Canonical := fun cur =>
  let cur := cur.blanks
  match cur.rest with
  | [] => .error (cur.fail .endInValue)
  | .stray _ :: _ => .error (cur.failNext .expectedValue)
  | .char c :: _ =>
    match scalarAt? c budget cur with
    | some found => do
      let (value, cur) ← found
      return (value.canonical, cur)
    | none =>
      if c = '[' then array cur
      else if c = '{' then object cur
      else .error (cur.failNext .expectedValue)

/-- Reads any value, with a number of containers that may still be opened inside each other. -/
def treeFrom (budget : Budget) : Nat → Reader Canonical
  | 0 => valueWith (fun cur => .error (cur.failNext .tooDeep))
      (fun cur => .error (cur.failNext .tooDeep)) budget
  | levels + 1 => valueWith
      (fun cur => do
        let (xs, cur) ← items (treeFrom budget levels) budget.symbols [] cur.skip
        return (.array xs, cur))
      (fun cur => do
        let (ms, cur) ← membersOf (treeFrom budget levels) budget budget.symbols [] cur.skip
        return (.object ms, cur))
      budget

def tree : Decoder Canonical := fun budget =>
  treeFrom budget budget.levels

/-- An open container of a value that is skipped. -/
inductive Container
  | array
  | object

/-- After a whole value inside the open containers, innermost first: leaves those that close
and gives the ones still open, of which the innermost goes on after a comma. -/
def leaveContainers : Nat → List Container → Cursor → Except Error (List Container × Cursor)
  | 0, _, cur => .error (cur.fail .endInValue)
  | _, [], cur => .ok ([], cur)
  | symbols + 1, .array :: outer, cur =>
    let cur := cur.blanks
    match cur.rest with
    | [] => .error (cur.fail .endInList)
    | s :: rest =>
      if s = .char ',' then .ok (.array :: outer, cur.past s rest)
      else if s = .char ']' then leaveContainers symbols outer (cur.past s rest)
      else .error (cur.failNext .expectedCommaOrBracket)
  | symbols + 1, .object :: outer, cur =>
    let cur := cur.blanks
    match cur.rest with
    | [] => .error (cur.fail .endInObject)
    | s :: rest =>
      if s = .char ',' then .ok (.object :: outer, cur.past s rest)
      else if s = .char '}' then leaveContainers symbols outer (cur.past s rest)
      else .error (cur.failNext .expectedCommaOrBrace)

/-- Skips a key and its colon when the innermost open container is an object. -/
def skipKey (symbols : Nat) : List Container → Cursor → Except Error Cursor
  | .object :: _, cur =>
    let cur := cur.blanks
    match cur.rest with
    | [] => .error (cur.fail .endInObject)
    | s :: rest =>
      if s = .char '"' then do colon (← skipString symbols (cur.past s rest))
      else .error (cur.failNext .keyNotString)
  | _, cur => .ok cur

def skipScalar (symbols : Nat) (c : Char) (cur : Cursor) : Except Error Cursor :=
  if c = 'n' then word ['u', 'l', 'l'] cur.skip
  else if c = 't' then word ['r', 'u', 'e'] cur.skip
  else if c = 'f' then word ['a', 'l', 's', 'e'] cur.skip
  else if c = '"' then skipString symbols cur.skip
  else if c = '-' then skipNumber cur.skip
  else if (Ascii.digit? c).isSome then skipNumber cur
  else .error (cur.failNext .expectedValue)

def Container.closes (container : Container) (cur : Cursor) : Bool :=
  match container with
  | .array => cur.rest.head? = some (.char ']')
  | .object => cur.rest.head? = some (.char '}')

/-- After a whole value inside open containers: the containers still open, at the next value of
the innermost, or nothing when the value was the outermost. -/
def afterValue (symbols : Nat) (opened : List Container) (cur : Cursor) :
    Except Error (Option (List Container) × Cursor) := do
  let (opened, cur) ← leaveContainers symbols opened cur
  if opened.isEmpty then return (none, cur)
  return (some opened, ← skipKey symbols opened cur)

def openContainer (symbols : Nat) (inner : Container) (cause : Cause) (opened : List Container)
    (cur : Cursor) : Except Error (Option (List Container) × Cursor) := do
  let cur := cur.skip.blanks
  if cur.rest.isEmpty then throw (cur.fail cause)
  if inner.closes cur then afterValue symbols opened cur.skip
  else return (some (inner :: opened), ← skipKey symbols (inner :: opened) cur)

/-- Skips the beginning of a container, or a scalar and what follows it up to the next value. -/
def skipStep (symbols : Nat) (opened : List Container) (cur : Cursor) :
    Except Error (Option (List Container) × Cursor) :=
  let cur := cur.blanks
  match cur.rest with
  | [] => .error (cur.fail .endInValue)
  | .stray _ :: _ => .error (cur.failNext .expectedValue)
  | .char c :: _ =>
    if c = '[' then openContainer symbols .array .endInList opened cur
    else if c = '{' then openContainer symbols .object .endInObject opened cur
    else do afterValue symbols opened (← skipScalar symbols c cur)

def skipFrom (symbols : Nat) : Nat → List Container → Cursor → Except Error Cursor
  | 0, _, cur => .error (cur.fail .endInValue)
  | steps + 1, opened, cur =>
    match skipStep symbols opened cur with
    | .error e => .error e
    | .ok (none, cur) => .ok cur
    | .ok (some opened, cur) => skipFrom symbols steps opened cur

/-- Skips a value, however deep it is. -/
def skipValue (budget : Budget) (cur : Cursor) : Except Error Cursor :=
  skipFrom budget.symbols budget.symbols [] cur

end VmAdmission.Json
