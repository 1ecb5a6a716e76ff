import VmAdmission.Text.Ascii

namespace VmAdmission

/-- A step over the beginning of a text, giving what was taken and the text after it. -/
abbrev Scan (α : Type) := List Char → Option (α × List Char)

namespace Scan

def mark (c : Char) : List Char → Option (List Char)
  | [] => none
  | d :: cs => if d = c then some cs else none

def decimalDigits (cs : List Char) : List Char × List Char :=
  cs.span fun c => (Ascii.digit? c).isSome

/-- Takes a decimal number of at most `max`, leading zeros allowed. -/
def decimal (max : Nat) : Scan Nat := fun cs => do
  let (digits, rest) := decimalDigits cs
  if digits.isEmpty then none
  let n ← Ascii.natOf? 0 digits
  if n ≤ max then some (n, rest) else none

end Scan

end VmAdmission
