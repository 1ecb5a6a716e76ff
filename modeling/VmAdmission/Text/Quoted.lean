import VmAdmission.Text.Ascii
import VmAdmission.Text.Unprintable

namespace VmAdmission.Quoted

/-- The character is written as an escape by its number. -/
def isHidden (c : Char) : Bool :=
  let n := c.toNat
  n < 0x20 || n == 0x7F || (0x80 ≤ n && Unprintable.contains n)

def escape (c : Char) : List Char :=
  if c = '"' then ['\\', '"']
  else if c = '\\' then ['\\', '\\']
  else if c = '\n' then ['\\', 'n']
  else if c = '\r' then ['\\', 'r']
  else if c = '\t' then ['\\', 't']
  else if c = '\x00' then ['\\', '0']
  else if isHidden c then ['\\', 'u', '\x7b'] ++ Ascii.hex c.toNat ++ ['\x7d']
  else [c]

/-- The text between double quotes, with an escape for every character that would not be seen as
itself. -/
def quote (text : String) : String :=
  String.ofList ('"' :: text.toList.flatMap escape ++ ['"'])

end VmAdmission.Quoted
