import RecordFilter.Date

/-!
Dates with a time of day and an offset from universal time, in the written forms that filters
accept. A time that is written without an offset is universal time.
-/
namespace RecordFilter

/-- A second of 60 is a leap second. The offset is in minutes east. -/
structure Moment where
  date : Date
  hour : Nat
  minute : Nat
  second : Nat
  nanosecond : Nat := 0
  offset : Int := 0
  deriving DecidableEq

namespace Moment

/-- The time of day exists. -/
def isValid (m : Moment) : Bool := m.hour < 24 && m.minute < 60 && m.second ≤ 60

def checked (m : Moment) : Option Moment := if m.isValid then some m else none

/-- Seconds and nanoseconds of universal time. A leap second is counted as nanoseconds beyond the
second before it. -/
def instant (m : Moment) : Int × Nat :=
  let minutes := m.date.dayNumber * 1440 + m.hour * 60 + m.minute - m.offset
  if m.second = 60 then (minutes * 60 + 59, 1000000000 + m.nanosecond)
  else (minutes * 60 + m.second, m.nanosecond)

/-- Whether two moments are the same instant. -/
def same (a b : Moment) : Bool := a.instant == b.instant

/-- The shortest of no, three, six and nine digits. -/
def fractionText (nanosecond : Nat) : String :=
  if nanosecond = 0 then ""
  else if nanosecond % 1000000 = 0 then "." ++ padded 3 (nanosecond / 1000000)
  else if nanosecond % 1000 = 0 then "." ++ padded 6 (nanosecond / 1000)
  else "." ++ padded 9 nanosecond

def offsetText (offset : Int) : String :=
  let minutes := offset.natAbs
  (if offset < 0 then "-" else "+") ++ padded 2 (minutes / 60) ++ ":" ++ padded 2 (minutes % 60)

def localText (m : Moment) : String :=
  s!"{m.date.text}T{padded 2 m.hour}:{padded 2 m.minute}:{padded 2 m.second}"
    ++ fractionText m.nanosecond

def text (m : Moment) : String := m.localText ++ offsetText m.offset

/-- The same with the letter Z for universal time. -/
def zuluText (m : Moment) : String :=
  m.localText ++ if m.offset = 0 then "Z" else offsetText m.offset

/-- Reads a point and the digits after it, if there is one. Digits after the ninth are dropped. -/
def readFraction (cs : List Char) : Option (Nat × List Char) :=
  match cs with
  | '.' :: rest =>
    let digits := (rest.takeWhile Char.isDigit).take 9
    if digits.isEmpty then none
    else some (digitsValue 0 digits * tenTo (9 - digits.length), rest.dropWhile Char.isDigit)
  | _ => some (0, cs)

/-- Reads the letter Z, or a sign, two digits of hours, a colon and two digits of minutes. -/
def readOffset (cs : List Char) : Option (Int × List Char) :=
  match cs with
  | 'Z' :: rest | 'z' :: rest => some (0, rest)
  | '+' :: rest => signed 1 rest
  | '-' :: rest | '\u2212' :: rest => signed (-1) rest
  | _ => none
where
  signed (sign : Int) (cs : List Char) : Option (Int × List Char) := do
    let (hours, cs) ← readFixedNumber 2 cs
    let cs ← readChar ':' cs
    let (minutes, cs) ← readFixedNumber 2 cs
    if hours < 24 ∧ minutes < 60 then some (sign * (hours * 60 + minutes : Nat), cs) else none

/-- The internet form: full widths, the letter T or a space in the middle, and an offset. -/
def readInternet (cs : List Char) : Option Moment := do
  let (year, cs) ← readFixedNumber 4 cs
  let cs ← readChar '-' cs
  let (month, cs) ← readFixedNumber 2 cs
  let cs ← readChar '-' cs
  let (day, cs) ← readFixedNumber 2 cs
  let date ← Date.of? year month day
  let cs ← match cs with
    | 'T' :: rest | 't' :: rest | ' ' :: rest => some rest
    | _ => none
  let (hour, cs) ← readFixedNumber 2 cs
  let cs ← readChar ':' cs
  let (minute, cs) ← readFixedNumber 2 cs
  let cs ← readChar ':' cs
  let (second, cs) ← readFixedNumber 2 cs
  let (nanosecond, cs) ← readFraction cs
  let (offset, cs) ← readOffset cs
  if cs.isEmpty then checked { date, hour, minute, second, nanosecond, offset } else none

/-- Hours, minutes and seconds with colons between them. -/
def readClock (cs : List Char) : Option ((Nat × Nat × Nat) × List Char) := do
  let (hour, cs) ← readNumber 2 cs
  let cs ← readChar ':' cs
  let (minute, cs) ← readNumber 2 cs
  let cs ← readChar ':' cs
  let (second, cs) ← readNumber 2 cs
  return ((hour, minute, second), cs)

/-- A date, the letter T and a time, which may have a fraction. -/
def readWithLetter (cs : List Char) : Option Moment := do
  let (date, cs) ← Date.readNext cs
  let cs ← readChar 'T' cs
  let ((hour, minute, second), cs) ← readClock cs
  let (nanosecond, cs) ← readFraction cs
  if cs.isEmpty then checked { date, hour, minute, second, nanosecond } else none

/-- A date and a time in whole seconds, with blanks or nothing between them. -/
def readWithBlanks (cs : List Char) : Option Moment := do
  let (date, cs) ← Date.readNext cs
  let ((hour, minute, second), cs) ← readClock (cs.dropWhile isBlank)
  if cs.isEmpty then checked { date, hour, minute, second } else none

end Moment

/-- A date alone or with a time. -/
inductive Temporal where
  | date (d : Date)
  | moment (m : Moment)
  deriving DecidableEq

namespace Temporal

def readDate (cs : List Char) : Option Temporal :=
  match Date.readNext cs with
  | some (d, []) => some (.date d)
  | _ => none

def read (cs : List Char) : Option Temporal :=
  (readDate cs).or <| (Moment.readInternet cs).map .moment |>.or <|
    (Moment.readWithLetter cs).map .moment |>.or <| (Moment.readWithBlanks cs).map .moment

def text : Temporal → String
  | .date d => d.text
  | .moment m => m.text

/-- Moments are compared as instants; a date alone is no moment. -/
def same : Temporal → Temporal → Bool
  | .date a, .date b => a == b
  | .moment a, .moment b => a.same b
  | _, _ => false

end Temporal
end RecordFilter
