import VmAdmission.Text.Ascii

namespace VmAdmission

def isLeapYear (year : Int) : Bool :=
  year % 4 == 0 && (year % 100 != 0 || year % 400 == 0)

def daysInMonth (year : Int) (month : Nat) : Nat :=
  if month = 2 then (if isLeapYear year then 29 else 28)
  else if month = 4 ∨ month = 6 ∨ month = 9 ∨ month = 11 then 30
  else 31

/-- The first year that days are known of. -/
def firstYear : Int := -262143

/-- The last year that days are known of. -/
def lastYear : Int := 262142

/-- A day of the Gregorian calendar, extended to all years of the range. -/
structure Date where
  year : Int
  month : Nat
  day : Nat
  year_known : firstYear ≤ year ∧ year ≤ lastYear
  month_known : 1 ≤ month ∧ month ≤ 12
  day_known : 1 ≤ day ∧ day ≤ daysInMonth year month
deriving DecidableEq

namespace Date

def ofNumbers? (year : Int) (month day : Nat) : Option Date :=
  if year_known : firstYear ≤ year ∧ year ≤ lastYear then
    if month_known : 1 ≤ month ∧ month ≤ 12 then
      if day_known : 1 ≤ day ∧ day ≤ daysInMonth year month then
        some { year, month, day, year_known, month_known, day_known }
      else none
    else none
  else none

/-- The day after, unless the range ends. -/
def next? (date : Date) : Option Date :=
  if date.day < daysInMonth date.year date.month then
    ofNumbers? date.year date.month (date.day + 1)
  else if date.month < 12 then ofNumbers? date.year (date.month + 1) 1
  else ofNumbers? (date.year + 1) 1 1

def previous? (date : Date) : Option Date :=
  if 1 < date.day then ofNumbers? date.year date.month (date.day - 1)
  else if 1 < date.month then
    ofNumbers? date.year (date.month - 1) (daysInMonth date.year (date.month - 1))
  else ofNumbers? (date.year - 1) 12 31

/-- The year in four digits, with its sign and as many digits as needed outside 0 to 9999. -/
def yearText (year : Int) : String :=
  if 0 ≤ year ∧ year ≤ 9999 then Ascii.padded 4 year.toNat
  else (if year < 0 then "-" else "+") ++ Ascii.padded 4 year.natAbs

def text (date : Date) : String :=
  yearText date.year ++ "-" ++ Ascii.padded 2 date.month ++ "-" ++ Ascii.padded 2 date.day

end Date

end VmAdmission
