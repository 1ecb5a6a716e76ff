import VmAdmission.Net.Punycode

namespace VmAdmission.Domain

/-- A row of characters: the first, and how many follow it. -/
structure Row where
  first : Nat
  more : Nat

def Row.has (row : Row) (code : Nat) : Bool :=
  row.first ≤ code && code ≤ row.first + row.more

def plainLetters : List Row := [
  ⟨0xDF, 23⟩, ⟨0xF8, 7⟩, ⟨0x138, 0⟩, ⟨0x390, 0⟩, ⟨0x3AC, 34⟩, ⟨0x430, 47⟩,
  ⟨0x3041, 85⟩, ⟨0x30A1, 89⟩, ⟨0x30FC, 0⟩, ⟨0x3400, 6591⟩, ⟨0x4E00, 20991⟩, ⟨0xAC00, 11171⟩]

/-- Capitals, and how far from each its small letter is. -/
def capitals : List (Row × Nat) := [
  (⟨0xC0, 22⟩, 32), (⟨0xD8, 6⟩, 32), (⟨0x386, 0⟩, 38), (⟨0x388, 2⟩, 37), (⟨0x38C, 0⟩, 64),
  (⟨0x38E, 1⟩, 63), (⟨0x391, 16⟩, 32), (⟨0x3A3, 8⟩, 32), (⟨0x400, 15⟩, 80), (⟨0x410, 31⟩, 32)]

/-- Letters in pairs of a capital and its small letter. -/
def pairs : List Row := [
  ⟨0x100, 47⟩, ⟨0x134, 3⟩, ⟨0x139, 5⟩, ⟨0x141, 7⟩, ⟨0x14A, 45⟩, ⟨0x179, 5⟩]

/-- The small letter of a letter outside ASCII, if it is a known one. -/
def small? (code : Nat) : Option Nat :=
  if plainLetters.any (·.has code) then some code
  else match capitals.find? fun entry => entry.1.has code with
    | some (_, distance) => some (code + distance)
    | none => (pairs.find? (·.has code)).map fun row => code + (code - row.first + 1) % 2

def letter? (c : Char) : Option Char :=
  if Punycode.isBasic c then some c.toLower else (small? c.toNat).map Char.ofNat

def marker : List Char := ['x', 'n', '-', '-']

def label? (text : List Char) : Option (List Char) := do
  let letters ← text.mapM letter?
  if letters.all Punycode.isBasic then some letters
  else if marker.isPrefixOf letters then none
  else some (marker ++ Punycode.encode letters)

def labels (text : List Char) : List (List Char) :=
  let (label, later) := text.foldr
    (fun c (label, later) => if c = '.' then ([], label :: later) else (c :: label, later)) ([], [])
  label :: later

/-- A name in ASCII: its labels between dots in small letters, those with letters outside ASCII in
Punycode. A name is refused if it has other characters outside ASCII than letters of the Latin,
Greek and Cyrillic alphabets, kana, Han characters and Hangul syllables. -/
def ascii? (name : List Char) : Option (List Char) := do
  return [('.' : Char)].intercalate (← (labels name).mapM label?)

/-- How names are read: what a name is in ASCII, if it is a name. What becomes of characters outside
ASCII is laid down in tables that change with each version of Unicode, so it is left open. -/
class Reader where
  ascii? : List Char → Option (List Char)

/-- Unless another reader is given, names have letters of some alphabets only, and labels that are
in Punycode already are taken as they are. -/
instance : Reader := ⟨Domain.ascii?⟩

end VmAdmission.Domain
