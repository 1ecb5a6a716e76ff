import VmAdmission.Json.Canonical
import VmAdmission.Text.Ascii

namespace VmAdmission

def intChars (n : Int) : List Char :=
  if n < 0 then '-' :: Nat.toDigits 10 n.natAbs else Nat.toDigits 10 n.natAbs

namespace Json

def escape (c : Char) : List Char :=
  if c = '"' then ['\\', '"']
  else if c = '\\' then ['\\', '\\']
  else if c = '\x08' then ['\\', 'b']
  else if c = '\x0c' then ['\\', 'f']
  else if c = '\n' then ['\\', 'n']
  else if c = '\r' then ['\\', 'r']
  else if c = '\t' then ['\\', 't']
  else if c.toNat < 0x20 then ['\\', 'u'] ++ Ascii.hexPadded 4 c.toNat
  else [c]

def stringChars (s : String) : List Char :=
  '"' :: s.toList.flatMap escape ++ ['"']

def numberChars : Number → List Char
  | .integer n => intChars n.val
  | .double x => x.chars

mutual

/-- The text written so far, newest first, with the tree after it. -/
def write : Json → List Char → List Char
  | .null, done => "null".toList.reverse ++ done
  | .bool true, done => "true".toList.reverse ++ done
  | .bool false, done => "false".toList.reverse ++ done
  | .number n, done => (numberChars n).reverse ++ done
  | .string s, done => (stringChars s).reverse ++ done
  | .array items, done => ']' :: writeItems false items ('[' :: done)
  | .object members, done => '}' :: writeMembers false members ('{' :: done)

/-- The items of an array, with a comma before each that has one before it. -/
def writeItems : Bool → List Json → List Char → List Char
  | _, [], done => done
  | comma, item :: items, done =>
    writeItems true items (write item (if comma then ',' :: done else done))

/-- The members of an object, with a comma before each that has one before it. -/
def writeMembers : Bool → List (String × Json) → List Char → List Char
  | _, [], done => done
  | comma, (key, value) :: members, done =>
    writeMembers true members
      (write value (':' :: ((stringChars key).reverse ++ if comma then ',' :: done else done)))

end

/-- The characters of the compact written form, without blanks and with escapes only where they are
needed. -/
def chars (j : Json) : List Char :=
  (write j []).reverse

def text (j : Json) : String :=
  String.ofList j.chars

end Json

end VmAdmission
