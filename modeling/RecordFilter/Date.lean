import RecordFilter.Text.Character
import RecordFilter.Text.Digits

/-!
Days of the Gregorian calendar, carried back before its introduction and before year 1.
-/
namespace RecordFilter

structure Date where
  year : Int
  month : Nat
  day : Nat
  deriving DecidableEq

def isLeapYear (year : Int) : Bool := year % 4 == 0 && (year % 100 != 0 || year % 400 == 0)

def daysInMonth (year : Int) : Nat → Nat
  | 1 | 3 | 5 | 7 | 8 | 10 | 12 => 31
  | 4 | 6 | 9 | 11 => 30
  | 2 => if isLeapYear year then 29 else 28
  | _ => 0

namespace Date

/-- The years that can be represented. -/
def minYear : Int := -262143
def maxYear : Int := 262142

def of? (year : Int) (month day : Nat) : Option Date :=
  if minYear ≤ year ∧ year ≤ maxYear ∧ 1 ≤ day ∧ day ≤ daysInMonth year month then
    some ⟨year, month, day⟩
  else none

/-- The number of days from the last day before year 1. -/
def dayNumber (d : Date) : Int :=
  let y := d.year - 1
  let months := (List.range (d.month - 1)).foldl (fun n m => n + daysInMonth d.year (m + 1)) 0
  365 * y + y / 4 - y / 100 + y / 400 + months + d.day

/-- Years outside 0 to 9999 carry a sign. -/
def yearText (year : Int) : String :=
  if 0 ≤ year ∧ year ≤ 9999 then padded 4 year.toNat
  else (if year < 0 then "-" else "+") ++ padded 4 year.natAbs

def text (d : Date) : String := s!"{yearText d.year}-{padded 2 d.month}-{padded 2 d.day}"

end Date

/-- Reads a number of at most `width` digits, blanks in front of it skipped. -/
def readNumber (width : Nat) (cs : List Char) : Option (Nat × List Char) :=
  let body := cs.dropWhile isBlank
  let digits := (body.take width).takeWhile Char.isDigit
  if digits.isEmpty then none else some (digitsValue 0 digits, body.drop digits.length)

/-- Reads a number of exactly `width` digits. -/
def readFixedNumber (width : Nat) (cs : List Char) : Option (Nat × List Char) :=
  let digits := (cs.take width).takeWhile Char.isDigit
  if digits.length = width then some (digitsValue 0 digits, cs.drop width) else none

def readChar (c : Char) : List Char → Option (List Char)
  | d :: rest => if d = c then some rest else none
  | [] => none

/-- Reads a year of at most four digits, or of any number of digits after a sign. -/
def readYear (cs : List Char) : Option (Int × List Char) :=
  match cs.dropWhile isBlank with
  | '-' :: rest => signed (-1) rest
  | '+' :: rest => signed 1 rest
  | body => (readNumber 4 body).map fun (year, rest) => (year, rest)
where
  signed (sign : Int) (rest : List Char) : Option (Int × List Char) :=
    let digits := rest.takeWhile Char.isDigit
    if digits.isEmpty then none
    else some (sign * digitsValue 0 digits, rest.drop digits.length)

/-- Reads year, month and day with hyphens between them. -/
def Date.readNext (cs : List Char) : Option (Date × List Char) := do
  let (year, cs) ← readYear cs
  let cs ← readChar '-' cs
  let (month, cs) ← readNumber 2 cs
  let cs ← readChar '-' cs
  let (day, cs) ← readNumber 2 cs
  return (← Date.of? year month day, cs)

end RecordFilter
