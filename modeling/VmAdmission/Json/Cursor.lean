import VmAdmission.Json.Error

namespace VmAdmission.Json

/-- The symbols still to come and the position before them. The column counts the bytes of the line
that lie behind the cursor. -/
structure Cursor where
  rest : List Symbol
  line : Nat
  column : Nat

namespace Cursor

def start (source : List Symbol) : Cursor :=
  ⟨source, 1, 0⟩

def past (cur : Cursor) (s : Symbol) (rest : List Symbol) : Cursor :=
  if s = .char '\n' then ⟨rest, cur.line + 1, 0⟩ else ⟨rest, cur.line, cur.column + s.size⟩

def fail (cur : Cursor) (cause : Cause) : Error :=
  ⟨cause, cur.line, cur.column⟩

/-- A failure noticed on the next byte; it is counted in, if there is one. -/
def failNext (cur : Cursor) (cause : Cause) : Error :=
  match cur.rest with
  | [] => cur.fail cause
  | .char '\n' :: _ => ⟨cause, cur.line + 1, 0⟩
  | _ => ⟨cause, cur.line, cur.column + 1⟩

def skip (cur : Cursor) : Cursor :=
  match cur.rest with
  | [] => cur
  | s :: rest => cur.past s rest

def skipBlanksFrom : List Symbol → Nat → Nat → Cursor
  | .char ' ' :: rest, line, column => skipBlanksFrom rest line (column + 1)
  | .char '\t' :: rest, line, column => skipBlanksFrom rest line (column + 1)
  | .char '\r' :: rest, line, column => skipBlanksFrom rest line (column + 1)
  | .char '\n' :: rest, line, _ => skipBlanksFrom rest (line + 1) 0
  | rest, line, column => ⟨rest, line, column⟩

def blanks (cur : Cursor) : Cursor :=
  skipBlanksFrom cur.rest cur.line cur.column

end Cursor

/-- What may be read at most: `symbols` bounds every loop and is never used up, because each
round takes a symbol of the text; `levels` is how many containers may still be opened inside
each other. -/
structure Budget where
  symbols : Nat
  levels : Nat

/-- A step over part of a text, giving what was read and the place after it. -/
abbrev Reader (α : Type) := Cursor → Except Error (α × Cursor)

/-- A reader of one value, within a budget. -/
abbrev Decoder (α : Type) := Budget → Reader α

/-- Containers that may be open at once. -/
def maxLevels : Nat := 127

/-- Reads the rest of a word that stands for a value, such as the `ull` of `null`. -/
def word : List Char → Cursor → Except Error Cursor
  | [], cur => .ok cur
  | c :: cs, cur =>
    match cur.rest with
    | [] => .error (cur.fail .endInValue)
    | s :: rest =>
      if s = .char c then word cs (cur.past s rest) else .error (cur.failNext .expectedIdent)

def colon (cur : Cursor) : Except Error Cursor :=
  let cur := cur.blanks
  match cur.rest with
  | .char ':' :: rest => .ok (cur.past (.char ':') rest)
  | [] => .error (cur.fail .endInObject)
  | _ => .error (cur.failNext .expectedColon)

end VmAdmission.Json
