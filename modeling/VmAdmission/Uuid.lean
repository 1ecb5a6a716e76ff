import VmAdmission.Text.Ascii

namespace VmAdmission

/-- An identifier of 128 bits. -/
structure Uuid where
  bits : BitVec 128
deriving DecidableEq, Inhabited, Hashable

namespace Uuid

def groups : List Nat := [8, 4, 4, 4, 12]

/-- The digits cut into groups with a hyphen before each but the first. -/
def hyphenate : List Nat → List Char → List Char
  | [], _ => []
  | [_], digits => digits
  | size :: sizes, digits => digits.take size ++ '-' :: hyphenate sizes (digits.drop size)

/-- The written form: lower-case digits in five groups. -/
def text (id : Uuid) : String :=
  String.ofList (hyphenate groups (Ascii.hexPadded 32 id.bits.toNat))

/-- The digits of a text in groups of the given sizes, if it is cut that way. -/
def grouped? : List Nat → List Char → Option (List Char)
  | [], _ => none
  | [size], cs => if cs.length = size then some cs else none
  | size :: sizes, cs =>
    match cs.drop size with
    | '-' :: rest => (cs.take size ++ ·) <$> grouped? sizes rest
    | _ => none

def hexNat? : Nat → List Char → Option Nat
  | n, [] => some n
  | n, c :: cs =>
    match Ascii.hexDigit? c with
    | some d => hexNat? (n * 16 + d) cs
    | none => none

def ofDigits? (digits : List Char) : Option Uuid :=
  (hexNat? 0 digits).map fun n => ⟨BitVec.ofNat 128 n⟩

/-- A written identifier without what it may be wrapped in. -/
structure Unwrapped where
  /-- How many characters of the wrapping come first. -/
  offset : Nat
  inner : List Char

/-- The words that may come before an identifier. -/
def urn : String := "urn:uuid:"

def unwrap (cs : List Char) : Unwrapped :=
  if cs.head? = some '{' ∧ cs.getLast? = some '}' ∧ 2 ≤ cs.length then ⟨1, cs.tail.dropLast⟩
  else if Ascii.alike (String.ofList (cs.take urn.length)) urn then
    ⟨urn.length, cs.drop urn.length⟩
  else ⟨0, cs⟩

inductive Malformed
  | strayCharacter (c : Char) (index : Nat)
  | wrongLength (found : Nat)
  | wrongGroupCount (found : Nat)
  | wrongGroupLength (group expected found : Nat)
deriving DecidableEq

def Malformed.message : Malformed → String
  | .strayCharacter c index =>
    "invalid character: found `" ++ String.singleton c ++ "` at " ++ toString index
  | .wrongLength found => "invalid length: found " ++ toString found
  | .wrongGroupCount found => "invalid group count: expected 5, found " ++ toString found
  | .wrongGroupLength group expected found =>
    "invalid group length in group " ++ toString group ++ ": expected " ++ toString expected ++
      ", found " ++ toString found

/-- The first character that is neither a digit nor a hyphen, and the byte where it stands. -/
def stray? : Nat → List Char → Option (Char × Nat)
  | _, [] => none
  | index, c :: cs =>
    if c = '-' ∨ (Ascii.hexDigit? c).isSome then stray? (index + c.utf8Size) cs
    else some (c, index)

/-- How many characters come before each hyphen since the one before it. -/
def groupLengths : Nat → List Char → List Nat
  | length, [] => [length]
  | length, c :: cs =>
    if c = '-' then length :: groupLengths 0 cs else groupLengths (length + 1) cs

/-- The complaint about the first of five groups that has not its length. When only the last one
is wrong, the whole text counts for it but for the other groups. -/
def wrongGroup (length : Nat) : Nat → List Nat → List Nat → Malformed
  | index, expected :: groups, found :: lengths =>
    if lengths.isEmpty then .wrongGroupLength index expected (length - 24)
    else if found = expected then wrongGroup length (index + 1) groups lengths
    else .wrongGroupLength index expected found
  | _, _, _ => .wrongLength length

def diagnose (length : Nat) (unwrapped : Unwrapped) : Malformed :=
  match stray? unwrapped.offset unwrapped.inner with
  | some (c, index) => .strayCharacter c index
  | none =>
    let lengths := groupLengths 0 unwrapped.inner
    if lengths.length = 1 ∧ unwrapped.offset = 0 then .wrongLength length
    else if lengths.length ≠ 5 then .wrongGroupCount lengths.length
    else wrongGroup length 0 groups lengths

/-- Reads an identifier: bare, with or without the hyphens, or with the hyphens inside braces or
behind `urn:uuid:`. -/
def parse (source : String) : Except Malformed Uuid :=
  let cs := source.toList
  let unwrapped := unwrap cs
  let digits := match grouped? groups unwrapped.inner with
    | some digits => some digits
    | none => if unwrapped.offset = 0 ∧ cs.length = 32 then some cs else none
  match digits.bind ofDigits? with
  | some id => .ok id
  | none => .error (diagnose source.utf8ByteSize unwrapped)

end Uuid

end VmAdmission
