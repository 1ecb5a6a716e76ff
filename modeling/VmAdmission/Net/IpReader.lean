import VmAdmission.Net.Ip
import VmAdmission.Text.Scan

namespace VmAdmission

namespace Ipv4

def octet : Scan UInt8 := fun cs => do
  let (digits, rest) := Scan.decimalDigits cs
  if digits.isEmpty ∨ 3 < digits.length then none
  if digits.head? = some '0' ∧ 1 < digits.length then none
  let n ← Ascii.natOf? 0 digits
  if n ≤ 255 then some (n.toUInt8, rest) else none

/-- Reads an address of version 4: four decimal numbers without leading zeros. -/
def scan : Scan Ipv4 := fun cs => do
  let (a, cs) ← octet cs
  let (b, cs) ← octet (← Scan.mark '.' cs)
  let (c, cs) ← octet (← Scan.mark '.' cs)
  let (d, cs) ← octet (← Scan.mark '.' cs)
  return (⟨#v[a, b, c, d]⟩, cs)

end Ipv4

namespace Ipv6

def hexNat (digits : List Char) : Nat :=
  digits.foldl (fun n c => n * 16 + (Ascii.hexDigit? c).getD 0) 0

def piece : Scan Nat := fun cs => do
  let (digits, rest) := cs.span fun c => (Ascii.hexDigit? c).isSome
  if digits.isEmpty ∨ 4 < digits.length then none
  return (hexNat digits, rest)

structure Pieces where
  /-- The pieces, the last first. -/
  reversed : List Nat
  /-- The last two are an address of version 4. -/
  embedded : Bool

/-- Goes over the colon before every piece but the first. -/
def separator (pieces : List Nat) (cs : List Char) : Option (List Char) :=
  if pieces.isEmpty then some cs else Scan.mark ':' cs

/-- Reads up to `room` pieces. The last two may be an address of version 4. -/
def scanPieces : Nat → List Nat → List Char → Pieces × List Char
  | 0, done, cs => (⟨done, false⟩, cs)
  | room + 1, done, cs =>
    match if room = 0 then none else (separator done cs).bind Ipv4.scan with
    | some (ip, rest) => (⟨ip.pieces.reverse ++ done, true⟩, rest)
    | none =>
      match (separator done cs).bind piece with
      | some (n, rest) => scanPieces room (n :: done) rest
      | none => (⟨done, false⟩, cs)

/-- Reads an address of version 6. Two colons stand for at least one piece. -/
def scan : Scan Ipv6 := fun cs => do
  let (front, cs) := scanPieces 8 [] cs
  if front.reversed.length = 8 then return (← ofPieces? front.reversed.reverse, cs)
  if front.embedded then none
  let cs ← Scan.mark ':' (← Scan.mark ':' cs)
  let (back, cs) := scanPieces (7 - front.reversed.length) [] cs
  let gap := List.replicate (8 - front.reversed.length - back.reversed.length) 0
  return (← ofPieces? (front.reversed.reverse ++ gap ++ back.reversed.reverse), cs)

/-- The address that a whole text is. -/
def parse? (text : String) : Option Ipv6 :=
  match scan text.toList with
  | some (ip, []) => some ip
  | _ => none

end Ipv6

end VmAdmission
