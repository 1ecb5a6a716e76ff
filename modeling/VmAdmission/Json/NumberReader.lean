import VmAdmission.Json.Cursor

namespace VmAdmission.Json

def maxSignificand : Nat := 0xFFFFFFFFFFFFFFFF

/-- The largest exponent that is read digit by digit. -/
def maxExponent : Nat := 0x7FFFFFFF

/-- Reads whole digits: the significand so far, and how many digits were left out of it. -/
def wholeDigits : List Symbol → Nat → Nat → Nat → Nat → (Nat × Nat) × Cursor
  | [], line, column, significand, dropped => ((significand, dropped), ⟨[], line, column⟩)
  | s :: rest, line, column, significand, dropped =>
    match s.digit? with
    | none => ((significand, dropped), ⟨s :: rest, line, column⟩)
    | some d =>
      if dropped = 0 ∧ significand * 10 + d ≤ maxSignificand then
        wholeDigits rest line (column + 1) (significand * 10 + d) 0
      else wholeDigits rest line (column + 1) significand (dropped + 1)

/-- Reads decimals: the significand so far, how many decimals are in it, and whether they still
count. -/
def decimals : List Symbol → Nat → Nat → Nat → Nat → Bool → (Nat × Nat) × Cursor
  | [], line, column, significand, places, _ => ((significand, places), ⟨[], line, column⟩)
  | s :: rest, line, column, significand, places, counting =>
    match s.digit? with
    | none => ((significand, places), ⟨s :: rest, line, column⟩)
    | some d =>
      if counting ∧ significand * 10 + d ≤ maxSignificand then
        decimals rest line (column + 1) (significand * 10 + d) (places + 1) true
      else decimals rest line (column + 1) significand places false

def skipDigits : List Symbol → Nat → Nat → Cursor
  | [], line, column => ⟨[], line, column⟩
  | s :: rest, line, column =>
    match s.digit? with
    | none => ⟨s :: rest, line, column⟩
    | some _ => skipDigits rest line (column + 1)

def Cursor.atDigit (cur : Cursor) : Bool :=
  match cur.rest with
  | s :: _ => (s.digit?).isSome
  | [] => false

def Cursor.atExponent (cur : Cursor) : Bool :=
  match cur.rest with
  | .char c :: _ => c = 'e' || c = 'E'
  | _ => false

def doubleAt (negative : Bool) (significand : Nat) (exponent : Int) : Reader Number := fun cur =>
  match Double.ofDecimal? negative significand exponent with
  | some x => .ok (.double x, cur)
  | none => .error (cur.fail .numberOutOfRange)

/-- The digits of an exponent: its value, or nothing at the digit that makes it too large. -/
def exponentDigits : List Symbol → Nat → Nat → Nat → Option Nat × Cursor
  | [], line, column, value => (some value, ⟨[], line, column⟩)
  | s :: rest, line, column, value =>
    match s.digit? with
    | none => (some value, ⟨s :: rest, line, column⟩)
    | some d =>
      if value * 10 + d ≤ maxExponent then exponentDigits rest line (column + 1) (value * 10 + d)
      else (none, ⟨rest, line, column + 1⟩)

/-- Reads the exponent that comes next, of a significand with its own exponent. -/
def exponentPart (negative : Bool) (significand : Nat) (scale : Int) : Reader Number := fun cur =>
  let cur := cur.skip
  let (down, cur) := match cur.rest with
    | .char '+' :: _ => (false, cur.skip)
    | .char '-' :: _ => (true, cur.skip)
    | _ => (false, cur)
  match cur.rest with
  | [] => .error (cur.fail .endInValue)
  | _ =>
    if ¬ cur.atDigit then .error (cur.failNext .invalidNumber)
    else match exponentDigits cur.rest cur.line cur.column 0 with
      | (some e, cur) => doubleAt negative significand (if down then scale - e else scale + e) cur
      | (none, cur) =>
        if significand ≠ 0 ∧ ¬ down then .error (cur.fail .numberOutOfRange)
        else .ok (.double (.zero negative), skipDigits cur.rest cur.line cur.column)

/-- Reads the decimals that come next, after whole digits of which some were left out. -/
def decimalPart (negative : Bool) (significand dropped : Nat) : Reader Number := fun cur =>
  let cur := cur.skip
  if ¬ cur.atDigit then
    .error (if cur.rest.isEmpty then cur.fail .endInValue else cur.failNext .invalidNumber)
  else
    let ((significand, places), cur) :=
      decimals cur.rest cur.line cur.column significand 0 true
    let scale : Int := dropped - places
    if cur.atExponent then exponentPart negative significand scale cur
    else doubleAt negative significand scale cur

def wholeNumber (negative : Bool) (significand : Nat) : Reader Number := fun cur =>
  if negative then
    if h : 0 < significand ∧ significand ≤ 0x8000000000000000 then
      .ok (.integer ⟨-(significand : Int), by omega, by omega⟩, cur)
    else doubleAt true significand 0 cur
  else if h : significand < 0x10000000000000000 then .ok (.integer ⟨significand, by omega, by omega⟩, cur)
  else doubleAt false significand 0 cur

/-- Reads a number; a minus sign is behind the cursor. One without fraction and exponent that fits
64 bits is an integer; every other one, and minus zero, is a double. -/
def numberBody (negative : Bool) : Reader Number := fun cur =>
  match cur.rest with
  | [] => .error (cur.fail .endInValue)
  | s :: rest =>
    match s.digit? with
    | none => .error (cur.failNext .invalidNumber)
    | some d =>
      let after := cur.past s rest
      if d = 0 ∧ after.atDigit then .error (after.failNext .invalidNumber)
      else
        let ((significand, dropped), cur) :=
          wholeDigits after.rest after.line after.column d 0
        if cur.rest.head? = some (.char '.') then decimalPart negative significand dropped cur
        else if cur.atExponent then exponentPart negative significand dropped cur
        else if dropped = 0 then wholeNumber negative significand cur
        else doubleAt negative significand dropped cur

def skipExponent (cur : Cursor) : Except Error Cursor :=
  let cur := cur.skip
  let cur := match cur.rest with
    | .char '+' :: _ => cur.skip
    | .char '-' :: _ => cur.skip
    | _ => cur
  if cur.atDigit then .ok (skipDigits cur.rest cur.line cur.column)
  else .error (cur.failNext .invalidNumber)

/-- Skips a number whose value is not wanted, however large; a minus sign is behind the cursor. -/
def skipNumber (cur : Cursor) : Except Error Cursor :=
  match cur.rest with
  | [] => .error (cur.fail .invalidNumber)
  | s :: rest =>
    match s.digit? with
    | none => .error (cur.failNext .invalidNumber)
    | some d =>
      let after := cur.past s rest
      if d = 0 ∧ after.atDigit then .error (after.failNext .invalidNumber)
      else
        let cur := skipDigits after.rest after.line after.column
        if cur.rest.head? = some (.char '.') then
          let cur := cur.skip
          if ¬ cur.atDigit then .error (cur.failNext .invalidNumber)
          else
            let cur := skipDigits cur.rest cur.line cur.column
            if cur.atExponent then skipExponent cur else .ok cur
        else if cur.atExponent then skipExponent cur
        else .ok cur

end VmAdmission.Json
