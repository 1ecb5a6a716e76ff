import VmAdmission.Text.Ascii

namespace VmAdmission

/-- One unit of a received text: a character, or a byte that is part of no character. -/
inductive Symbol
  | char (c : Char)
  | stray (b : UInt8)
deriving DecidableEq, Inhabited

namespace Symbol

def size : Symbol → Nat
  | .char c => c.utf8Size
  | .stray _ => 1

def digit? : Symbol → Option Nat
  | .char c => Ascii.digit? c
  | .stray _ => none

def ofString (text : String) : List Symbol :=
  text.toList.map .char

end Symbol

namespace Utf8

/-- A character, or a run of bytes that no character begins with. -/
inductive Piece
  | char (c : Char)
  | illFormed (bytes : List UInt8)

/-- What the first byte of a character of several bytes promises: how many bytes follow, the
bits it carries itself, and the bounds of the second byte. The bounds leave out overlong forms,
surrogates and values beyond the last character. -/
structure Lead where
  more : Nat
  bits : Nat
  low : UInt8
  high : UInt8

def Lead.of? (b : UInt8) : Option Lead :=
  if 0xC2 ≤ b ∧ b ≤ 0xDF then some ⟨1, b.toNat - 0xC0, 0x80, 0xBF⟩
  else if b = 0xE0 then some ⟨2, 0, 0xA0, 0xBF⟩
  else if b = 0xED then some ⟨2, 0xD, 0x80, 0x9F⟩
  else if 0xE1 ≤ b ∧ b ≤ 0xEF then some ⟨2, b.toNat - 0xE0, 0x80, 0xBF⟩
  else if b = 0xF0 then some ⟨3, 0, 0x90, 0xBF⟩
  else if 0xF1 ≤ b ∧ b ≤ 0xF3 then some ⟨3, b.toNat - 0xF0, 0x80, 0xBF⟩
  else if b = 0xF4 then some ⟨3, 4, 0x80, 0x8F⟩
  else none

/-- Reads up to `more` following bytes, the first of them between `low` and `high`. Gives the
value and the bytes taken when all are there, and otherwise only the bytes taken. -/
def follow : Nat → Nat → UInt8 → UInt8 → List UInt8 → List UInt8 → Option Nat × List UInt8
  | 0, value, _, _, taken, _ => (some value, taken)
  | _ + 1, _, _, _, taken, [] => (none, taken)
  | more + 1, value, low, high, taken, b :: bytes =>
    if low ≤ b ∧ b ≤ high then
      follow more (value * 64 + (b.toNat - 0x80)) 0x80 0xBF (taken ++ [b]) bytes
    else (none, taken)

/-- The piece that begins with byte `b`, and how many of the bytes after `b` belong to it. -/
def first (b : UInt8) (bytes : List UInt8) : Piece × Nat :=
  if b < 0x80 then (.char (Char.ofNat b.toNat), 0)
  else match Lead.of? b with
    | none => (.illFormed [b], 0)
    | some lead =>
      match follow lead.more lead.bits lead.low lead.high [] bytes with
      | (some value, taken) => (.char (Char.ofNat value), taken.length)
      | (none, taken) => (.illFormed (b :: taken), taken.length)

/-- Cuts bytes into pieces, given how many leading bytes belong to the piece before and the
pieces so far, the newest first. -/
def cut : Nat → List Piece → List UInt8 → List Piece
  | _, pieces, [] => pieces.reverse
  | skip + 1, pieces, _ :: bytes => cut skip pieces bytes
  | 0, pieces, b :: bytes =>
    let found := first b bytes
    cut found.2 (found.1 :: pieces) bytes

def pieces (bytes : List UInt8) : List Piece :=
  cut 0 [] bytes

/-- The symbols of a byte sequence: every byte of an ill-formed piece is a stray one. -/
def symbols (bytes : List UInt8) : List Symbol :=
  (pieces bytes).flatMap fun
    | .char c => [.char c]
    | .illFormed stray => stray.map .stray

def decode? (bytes : List UInt8) : Option String :=
  (symbols bytes).mapM (fun | Symbol.char c => some c | Symbol.stray _ => none) |>.map String.ofList

/-- The text of a byte sequence, with the replacement character for each ill-formed piece. -/
def decodeLossy (bytes : List UInt8) : String :=
  String.ofList ((pieces bytes).map fun
    | .char c => c
    | .illFormed _ => '\uFFFD')

def encode (text : String) : List UInt8 :=
  text.toUTF8.toList

end Utf8

end VmAdmission
