namespace VmAdmission

/-- A mantissa of 53 bits with its exponent, in the only form the number has: the leading bit is
set unless the exponent is the least. -/
def Double.InRange (mantissa : Nat) (exponent : Int) : Prop :=
  mantissa < 0x20000000000000 ∧ -1074 ≤ exponent ∧ exponent ≤ 971 ∧
    (0x10000000000000 ≤ mantissa ∨ exponent = -1074)

instance (mantissa : Nat) (exponent : Int) : Decidable (Double.InRange mantissa exponent) := by
  unfold Double.InRange; infer_instance

/-- A finite number of double precision, a sign and `mantissa * 2 ^ exponent`. Every operation
rounds the exact result once, to the nearest number, a tie to the even mantissa. -/
structure Double where
  negative : Bool
  mantissa : Nat
  exponent : Int
  inRange : Double.InRange mantissa exponent
deriving DecidableEq

namespace Double

def zero (negative : Bool) : Double :=
  ⟨negative, 0, -1074, by decide⟩

instance : Inhabited Double := ⟨zero false⟩

def isZero (x : Double) : Bool :=
  x.mantissa == 0

def withSign (negative : Bool) (x : Double) : Double :=
  { x with negative }

def twoTo (n : Int) : Nat :=
  Nat.pow 2 n.toNat

/-- The quotient rounded to the nearest natural number, a tie to the even one. -/
def roundDiv (num den : Nat) : Nat :=
  let whole := num / den
  let twice := 2 * (num % den)
  if den < twice ∨ (twice = den ∧ whole % 2 = 1) then whole + 1 else whole

/-- The exponent at which the quotient has a mantissa of 53 bits, or the least exponent. -/
def exponentOf (num den : Nat) : Int :=
  let guess : Int := (num.log2 : Int) - den.log2 - 52
  let fits := den * twoTo guess * 0x10000000000000 ≤ num * twoTo (-guess)
  max (-1074) (if fits then guess else guess - 1)

/-- The number nearest to `num / den`, or nothing when that is beyond the largest. -/
def ofRatio? (negative : Bool) (num den : Nat) : Option Double :=
  if num = 0 then some (zero negative)
  else
    let exponent := exponentOf num den
    let mantissa := roundDiv (num * twoTo (-exponent)) (den * twoTo exponent)
    -- Rounding up may carry into a 54th bit; the mantissa is then a power of two.
    let carried := mantissa = 0x20000000000000
    let mantissa' := if carried then 0x10000000000000 else mantissa
    let exponent' := if carried then exponent + 1 else exponent
    if h : InRange mantissa' exponent' then some ⟨negative, mantissa', exponent', h⟩ else none

def ofNat? (n : Nat) : Option Double :=
  ofRatio? false n 1

/-- The product, keeping the sign of the first factor. -/
def mul? (x y : Double) : Option Double :=
  let e := x.exponent + y.exponent
  ofRatio? x.negative (x.mantissa * y.mantissa * twoTo e) (twoTo (-e))

/-- The quotient by a number that is not zero, keeping the sign of the dividend. -/
def div? (x y : Double) : Option Double :=
  let e := x.exponent - y.exponent
  ofRatio? x.negative (x.mantissa * twoTo e) (y.mantissa * twoTo (-e))

/-- Divides by powers of ten until the exponent left is within a double's own range. The
quotient reaches zero after two rounds of 308 places. -/
def shrink : Nat → Double → Nat → Option Double
  | 0, x, _ => some (zero x.negative)
  | rounds + 1, x, places =>
    if x.isZero then some x
    else if places ≤ 308 then do x.div? (← ofNat? (Nat.pow 10 places))
    else do shrink rounds (← x.div? (← ofNat? (Nat.pow 10 308))) (places - 308)

/-- The number that a decimal significand and a power of ten give: the significand is rounded,
then multiplied or divided by the rounded power, and the result is rounded again. Nothing when
it is beyond the largest number. -/
def ofDecimal? (negative : Bool) (significand : Nat) (exponent : Int) : Option Double := do
  let x := (← ofNat? significand).withSign negative
  if exponent < 0 then shrink 4 x (-exponent).toNat
  else if x.isZero then some x
  else if exponent ≤ 308 then x.mul? (← ofNat? (Nat.pow 10 exponent.toNat))
  else none

end Double

end VmAdmission
