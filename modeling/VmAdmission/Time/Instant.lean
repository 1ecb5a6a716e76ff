import VmAdmission.Time.Date
import VmAdmission.Text.Blank

namespace VmAdmission

/-- A time of day. A leap second is the second 60. -/
structure TimeOfDay where
  hour : Fin 24
  minute : Fin 60
  second : Fin 61
  nano : Fin 1000000000
deriving DecidableEq

/-- An instant in universal time. -/
structure Instant where
  date : Date
  time : TimeOfDay
deriving DecidableEq

/-- The decimals of a second: none, three, six or nine. -/
def decimalsText (nano : Nat) : String :=
  if nano = 0 then ""
  else if nano % 1000000 = 0 then "." ++ Ascii.padded 3 (nano / 1000000)
  else if nano % 1000 = 0 then "." ++ Ascii.padded 6 (nano / 1000)
  else "." ++ Ascii.padded 9 nano

def TimeOfDay.text (time : TimeOfDay) : String :=
  Ascii.padded 2 time.hour ++ ":" ++ Ascii.padded 2 time.minute ++ ":" ++
    Ascii.padded 2 time.second ++ decimalsText time.nano

namespace Instant

def text (instant : Instant) : String :=
  instant.date.text ++ "T" ++ instant.time.text ++ "Z"

inductive Malformed
  | tooShort
  | invalid
  | outOfRange
  | impossible
  | trailing
deriving DecidableEq

def Malformed.message : Malformed → String
  | .tooShort => "premature end of input"
  | .invalid => "input contains invalid characters"
  | .outOfRange => "input is out of range"
  | .impossible => "no possible date and time matching input"
  | .trailing => "trailing input"

abbrev Step (α : Type) := List Char → Except Malformed (α × List Char)

def maxNumber : Nat := 0x7FFFFFFFFFFFFFFF

/-- Reads at most `width` digits, given those before them as a number. -/
def digits : Nat → Nat → Step Nat
  | 0, n, cs => .ok (n, cs)
  | _ + 1, n, [] => .ok (n, [])
  | width + 1, n, c :: cs =>
    match Ascii.digit? c with
    | none => .ok (n, c :: cs)
    | some d =>
      if n * 10 + d ≤ maxNumber then digits width (n * 10 + d) cs else .error .outOfRange

def number (width : Nat) : Step Nat
  | [] => .error .tooShort
  | c :: cs => if (Ascii.digit? c).isSome then digits width 0 (c :: cs) else .error .invalid

/-- Reads a number of one or two digits that lies between two bounds, after blanks. -/
def bounded (low high : Nat) : Step Nat := fun cs => do
  let (n, cs) ← number 2 (trimStart cs)
  if low ≤ n ∧ n ≤ high then .ok (n, cs) else .error .outOfRange

/-- Reads a year: up to four digits, or any number after a sign. -/
def year : Step Int := fun cs => do
  let (n, cs) ← match trimStart cs with
    | '-' :: rest => do
      let (n, after) ← number rest.length rest
      pure (-(n : Int), after)
    | '+' :: rest => do
      let (n, after) ← number rest.length rest
      pure ((n : Int), after)
    | rest => do
      let (n, after) ← number 4 rest
      pure ((n : Int), after)
  if -0x80000000 ≤ n ∧ n < 0x80000000 then .ok (n, cs) else .error .outOfRange

def mark (c : Char) (cs : List Char) : Except Malformed (List Char) :=
  match trimStart cs with
  | [] => .error .tooShort
  | d :: rest => if d = c then .ok rest else .error .invalid

/-- Reads the decimals of a second, of which nine count, if a point comes next. -/
def decimals : Step Nat
  | '.' :: cs => do
    let (n, rest) ← number 9 cs
    let places := cs.length - rest.length
    .ok (n * Nat.pow 10 (9 - places), rest.dropWhile fun c => (Ascii.digit? c).isSome)
  | cs => .ok (0, cs)

def twoDigits : Step (Nat × Nat)
  | [] => .error .tooShort
  | [c] => .error (if c.utf8Size < 2 then .tooShort else .invalid)
  | c :: d :: cs =>
    match Ascii.digit? c, Ascii.digit? d with
    | some m, some n => .ok ((m, n), cs)
    | _, _ => .error .invalid

/-- Reads the sign of an offset: whether it is a minus. -/
def offsetSign : Step Bool
  | [] => .error .tooShort
  | c :: cs =>
    if c = '+' then .ok (false, cs)
    else if c = '-' ∨ c = '\u2212' then .ok (true, cs)
    else .error .invalid

def offset : Step Int := fun cs => do
  let cs := trimStart cs
  if Ascii.alike (String.ofList (cs.take 3)) "UTC" then return (0, cs.drop 3)
  match cs with
  | 'Z' :: rest => return (0, rest)
  | 'z' :: rest => return (0, rest)
  | _ =>
    let (negative, cs) ← offsetSign cs
    let ((h, i), cs) ← twoDigits cs
    let ((m, n), cs) ← twoDigits (cs.dropWhile fun c => c = ':' || isBlank c)
    if 6 ≤ m then throw .outOfRange
    let minutes : Int := (h * 10 + i) * 60 + (m * 10 + n)
    return (if negative then -minutes else minutes, cs)

/-- The instant at a time of day in a place that is `offset` minutes ahead of universal time. -/
def atOffset (date : Date) (time : TimeOfDay) (offset : Int) : Except Malformed Instant :=
  if offset ≤ -1440 ∨ 1440 ≤ offset then .error .outOfRange
  else
    let minutes := time.hour.val * 60 + time.minute.val - offset
    let day := if minutes < 0 then date.previous? else if 1440 ≤ minutes then date.next? else date
    let ofDay := (minutes % 1440).toNat
    match day with
    | none => .error .impossible
    | some date => .ok ⟨date, { time with hour := .ofNat 24 (ofDay / 60), minute := .ofNat 60 ofDay }⟩

/-- Reads an instant. There may be blanks around the numbers, a blank or `t` for `T`, further
decimals, which are dropped, and any offset of less than a day. -/
def parse (source : String) : Except Malformed Instant := do
  let (year, cs) ← year source.toList
  let (month, cs) ← bounded 1 12 (← mark '-' cs)
  let (day, cs) ← bounded 1 31 (← mark '-' cs)
  let cs ← match cs with
    | [] => throw .tooShort
    | c :: rest => if c = 't' ∨ c = 'T' ∨ c = ' ' then pure rest else throw .invalid
  let (hour, cs) ← bounded 0 23 cs
  let (minute, cs) ← bounded 0 59 (← mark ':' cs)
  let (second, cs) ← bounded 0 60 (← mark ':' cs)
  let (nano, cs) ← decimals cs
  let (offset, cs) ← offset cs
  if ¬ (trimStart cs).isEmpty then throw .trailing
  let some date := Date.ofNumbers? year month day | throw .outOfRange
  atOffset date ⟨.ofNat 24 hour, .ofNat 60 minute, .ofNat 61 second, .ofNat 1000000000 nano⟩ offset

end Instant

end VmAdmission
