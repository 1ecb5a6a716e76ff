import VmAdmission.Json.Cursor

namespace VmAdmission.Json

/-- The position a number of bytes further, inside a character if need be, or nothing when the
text is shorter. -/
def advance : Nat → List Symbol → Nat → Nat → Option (Nat × Nat)
  | 0, _, line, column => some (line, column)
  | _ + 1, [], _, _ => none
  | n + 1, s :: rest, line, column =>
    if s = .char '\n' then advance n rest (line + 1) 0
    else if s.size ≤ n + 1 then advance (n + 1 - s.size) rest line (column + s.size)
    else some (line, column + n + 1)

def Cursor.atEnd (cur : Cursor) : Cursor :=
  cur.rest.foldl (fun cur s => cur.past s []) cur

def hexQuad? (a b c d : Char) : Option Nat := do
  return (((← Ascii.hexDigit? a) * 16 + (← Ascii.hexDigit? b)) * 16 + (← Ascii.hexDigit? c)) * 16
    + (← Ascii.hexDigit? d)

/-- The failure of an escape by number whose digits come next: four bytes are taken for it. -/
def Cursor.badQuad (cur : Cursor) : Error :=
  match advance 4 cur.rest cur.line cur.column with
  | some (line, column) => ⟨.invalidEscape, line, column⟩
  | none => cur.atEnd.fail .endInString

def hexQuad : Reader Nat := fun cur =>
  match cur.rest with
  | .char a :: .char b :: .char c :: .char d :: rest =>
    match hexQuad? a b c d with
    | some n => .ok (n, ⟨rest, cur.line, cur.column + 4⟩)
    | none => .error cur.badQuad
  | _ => .error cur.badQuad

def isHighSurrogate (n : Nat) : Bool := 0xD800 ≤ n && n ≤ 0xDBFF

def isLowSurrogate (n : Nat) : Bool := 0xDC00 ≤ n && n ≤ 0xDFFF

/-- Reads one given character inside an escape of two surrogates. -/
def pairMark (c : Char) (cur : Cursor) : Except Error Cursor :=
  match cur.rest with
  | [] => .error (cur.fail .endInString)
  | s :: rest =>
    if s = .char c then .ok (cur.past s rest) else .error (cur.failNext .unfinishedSurrogate)

/-- Reads an escape by number, or the two that make a pair of surrogates. -/
def numberedEscape : Reader Char := fun cur => do
  let (first, cur) ← hexQuad cur
  if isLowSurrogate first then .error (cur.fail .loneSurrogate)
  else if isHighSurrogate first then
    let cur ← pairMark '\\' cur
    let cur ← pairMark 'u' cur
    let (second, cur) ← hexQuad cur
    if isLowSurrogate second then
      .ok (Char.ofNat ((first - 0xD800) * 0x400 + (second - 0xDC00) + 0x10000), cur)
    else .error (cur.fail .loneSurrogate)
  else .ok (Char.ofNat first, cur)

def letterEscape? : Char → Option Char
  | '"' => some '"'
  | '\\' => some '\\'
  | '/' => some '/'
  | 'b' => some '\x08'
  | 'f' => some '\x0c'
  | 'n' => some '\n'
  | 'r' => some '\r'
  | 't' => some '\t'
  | _ => none

def escapeSequence : Reader Char := fun cur =>
  match cur.rest with
  | [] => .error (cur.fail .endInString)
  | .char c :: rest =>
    if c = 'u' then numberedEscape (cur.past (.char c) rest)
    else match letterEscape? c with
      | some meant => .ok (meant, cur.past (.char c) rest)
      | none => .error (cur.failNext .invalidEscape)
  | .stray _ :: _ => .error (cur.failNext .invalidEscape)

/-- Reads a string to its closing quote: the characters so far, newest first, and the first
complaint about a stray byte. -/
def stringFrom : Nat → List Char → Option Error → Reader String
  | 0, _, _, cur => .error (cur.fail .endInString)
  | symbols + 1, done, complaint, cur =>
    match cur.rest with
    | [] => .error (cur.fail .endInString)
    | .char c :: rest =>
      if c = '"' then
        match complaint with
        | some e => .error e
        | none => .ok (String.ofList done.reverse, cur.past (.char c) rest)
      else if c = '\\' then do
        let (meant, cur) ← escapeSequence (cur.past (.char c) rest)
        stringFrom symbols (meant :: done) complaint cur
      else if c.toNat < 0x20 then .error (cur.failNext .controlCharacter)
      else stringFrom symbols (c :: done) complaint (cur.past (.char c) rest)
    | .stray b :: rest =>
      stringFrom symbols done (complaint <|> some (cur.failNext .invalidCodePoint))
        (cur.past (.stray b) rest)

/-- Reads a string whose opening quote is behind the cursor. -/
def stringBody : Decoder String := fun budget cur =>
  stringFrom budget.symbols [] none cur

/-- Skips what comes after a backslash. Surrogates need not be paired here. -/
def skipEscape (cur : Cursor) : Except Error Cursor :=
  match cur.rest with
  | [] => .error (cur.fail .endInString)
  | .char c :: rest =>
    if c = 'u' then (·.2) <$> hexQuad (cur.past (.char c) rest)
    else if (letterEscape? c).isSome then .ok (cur.past (.char c) rest)
    else .error (cur.failNext .invalidEscape)
  | .stray _ :: _ => .error (cur.failNext .invalidEscape)

/-- Skips a string to its closing quote. A control character is not counted in. -/
def skipString : Nat → Cursor → Except Error Cursor
  | 0, cur => .error (cur.fail .endInString)
  | symbols + 1, cur =>
    match cur.rest with
    | [] => .error (cur.fail .endInString)
    | .char c :: rest =>
      if c = '"' then .ok (cur.past (.char c) rest)
      else if c = '\\' then do
        skipString symbols (← skipEscape (cur.past (.char c) rest))
      else if c.toNat < 0x20 then .error (cur.fail .controlCharacter)
      else skipString symbols (cur.past (.char c) rest)
    | .stray b :: rest => skipString symbols (cur.past (.stray b) rest)

end VmAdmission.Json
