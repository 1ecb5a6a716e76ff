import VmAdmission.Text.Ascii

namespace VmAdmission

/-- A length of time. -/
structure Duration where
  millis : Nat
deriving DecidableEq

namespace Duration

instance : LE Duration := ⟨fun a b => a.millis ≤ b.millis⟩

instance (a b : Duration) : Decidable (a ≤ b) := inferInstanceAs (Decidable (a.millis ≤ b.millis))

theorem le_antisymm {a b : Duration} (le : a ≤ b) (ge : b ≤ a) : a = b :=
  congrArg mk (Nat.le_antisymm le ge)

def ofSeconds (n : Nat) : Duration := ⟨n * 1000⟩

def trimZeros (digits : List Char) : List Char :=
  (digits.reverse.dropWhile (· = '0')).reverse

/-- The decimals after whole seconds, with their point. -/
def fraction (millis : Nat) : String :=
  if millis = 0 then "" else "." ++ String.ofList (trimZeros (Ascii.padded 3 millis).toList)

/-- The written form, in the largest unit of which there is at least one: seconds with up to three
decimals, milliseconds, and for no time at all nanoseconds. -/
def text (d : Duration) : String :=
  if 1000 ≤ d.millis then toString (d.millis / 1000) ++ fraction (d.millis % 1000) ++ "s"
  else if d.millis = 0 then "0ns"
  else toString d.millis ++ "ms"

end Duration

end VmAdmission
