import VmAdmission.Decimal.Double

namespace VmAdmission.Double

/-- The decimal number `digits * 10 ^ exponent`. -/
structure Decimal where
  digits : Nat
  exponent : Int

def tenTo (n : Int) : Nat :=
  Nat.pow 10 n.toNat

/-- Four times the mantissa on the grid of a power of ten: the factor for the mantissa side and
the factor for the decimal side of a comparison. -/
def gridFactors (exponent place : Int) : Nat × Nat :=
  (twoTo (exponent - 2) * tenTo (-place), twoTo (2 - exponent) * tenTo place)

def leadingPlace (num den : Nat) : Int :=
  let guess : Int := ((num.log2 : Int) - den.log2) * 30103 / 100000
  let reached (p : Int) : Bool := den * tenTo p ≤ num * tenTo (-p)
  if reached (guess + 1) then guess + 1 else if reached guess then guess else guess - 1

/-- The multiple of `10 ^ place` nearest to the number among the two around it, if one of them
lies in the interval of reals that round to the number. -/
def onGrid? (x : Double) (place : Int) : Option Decimal :=
  let (up, down) := gridFactors x.exponent place
  let value := 4 * x.mantissa * up
  let gap := if x.mantissa = 0x10000000000000 ∧ x.exponent ≠ -1074 then 1 else 2
  let low := (4 * x.mantissa - gap) * up
  let high := (4 * x.mantissa + 2) * up
  let inside (d : Nat) : Bool :=
    if x.mantissa % 2 = 0 then low ≤ d * down && d * down ≤ high
    else low < d * down && d * down < high
  let below := value / down
  let rest := value % down
  let nearerBelow : Bool := 2 * rest < down || (2 * rest == down && below % 2 == 0)
  if inside below && inside (below + 1) then
    some ⟨if nearerBelow then below else below + 1, place⟩
  else if inside below then some ⟨below, place⟩
  else if inside (below + 1) then some ⟨below + 1, place⟩
  else none

/-- Tries ever finer grids, of which the seventeenth always has a hit. -/
def search (x : Double) : Nat → Int → Decimal
  | 0, place => ⟨4 * x.mantissa * (gridFactors x.exponent place).1 /
      (gridFactors x.exponent place).2, place⟩
  | grids + 1, place =>
    match onGrid? x place with
    | some found => found
    | none => search x grids (place - 1)

def Decimal.trimmed : Nat → Decimal → Decimal
  | 0, d => d
  | places + 1, d =>
    if d.digits ≠ 0 ∧ d.digits % 10 = 0 then trimmed places ⟨d.digits / 10, d.exponent + 1⟩ else d

/-- The decimal with the fewest digits that reads back as the number, the nearest of those. -/
def shortest (x : Double) : Decimal :=
  let first := leadingPlace (x.mantissa * twoTo x.exponent) (twoTo (-x.exponent))
  (search x 17 first).trimmed 20

/-- The written form of a positive decimal. One whose first digit stands for a power of ten from -5
to 15 is written out with a point, others in scientific notation with a signed exponent. -/
def Decimal.chars (d : Decimal) : List Char :=
  let digits := Nat.toDigits 10 d.digits
  let first : Int := d.exponent + digits.length - 1
  if -5 ≤ first ∧ first ≤ 15 then
    if d.exponent ≥ 0 then digits ++ List.replicate d.exponent.toNat '0' ++ ['.', '0']
    else if first ≥ 0 then
      digits.take (first.toNat + 1) ++ '.' :: digits.drop (first.toNat + 1)
    else '0' :: '.' :: List.replicate (-first - 1).toNat '0' ++ digits
  else
    let fraction := digits.drop 1
    let sign := if first < 0 then '-' else '+'
    digits.take 1 ++ (if fraction.isEmpty then [] else '.' :: fraction) ++
      'e' :: sign :: Nat.toDigits 10 first.natAbs

def chars (x : Double) : List Char :=
  (if x.negative then ['-'] else []) ++
    (if x.isZero then ['0', '.', '0'] else x.shortest.chars)

end VmAdmission.Double
