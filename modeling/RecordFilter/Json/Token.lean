import RecordFilter.Json
import RecordFilter.Text.Digits

/-!
Cutting JSON text into tokens.
-/
namespace RecordFilter
namespace Json

inductive Token where
  | openArray | closeArray | openObject | closeObject | comma | colon
  /-- Absent if the text holds half of a surrogate pair. -/
  | string (content : Option String)
  /-- A number or one of the three words. -/
  | scalar (value : Json)

def isSpace (c : Char) : Bool := c == ' ' || c == '\n' || c == '\r' || c == '\t'

/-! Strings. An escape by code names a 16-bit unit, and two units can make one character. -/

def hexValue (c : Char) : Option Nat :=
  if c.isDigit then some (c.toNat - '0'.toNat)
  else if 'a' ≤ c ∧ c ≤ 'f' then some (c.toNat - 'a'.toNat + 10)
  else if 'A' ≤ c ∧ c ≤ 'F' then some (c.toNat - 'A'.toNat + 10)
  else none

def unitOf? (a b c d : Char) : Option Nat := do
  return (((← hexValue a) * 16 + (← hexValue b)) * 16 + (← hexValue c)) * 16 + (← hexValue d)

def letterEscape? : Char → Option Char
  | '"' => some '"'
  | '\\' => some '\\'
  | '/' => some '/'
  | 'b' => some '\x08'
  | 'f' => some '\x0c'
  | 'n' => some '\n'
  | 'r' => some '\r'
  | 't' => some '\t'
  | _ => none

/-- Reads up to the closing quote. Gives the code points and 16-bit units of the content, and the
number of characters read. Control characters are refused. -/
def readUnits : List Char → Option (List Nat × Nat)
  | [] => none
  | '"' :: _ => some ([], 1)
  | '\\' :: 'u' :: a :: b :: c :: d :: rest => do
    let unit ← unitOf? a b c d
    let (units, n) ← readUnits rest
    return (unit :: units, n + 6)
  | '\\' :: c :: rest => do
    let char ← letterEscape? c
    let (units, n) ← readUnits rest
    return (char.toNat :: units, n + 2)
  | c :: rest =>
    if c = '\\' ∨ c.toNat < 0x20 then none
    else (readUnits rest).map fun (units, n) => (c.toNat :: units, n + 1)

def isHighHalf (n : Nat) : Bool := 0xD800 ≤ n && n < 0xDC00

def isLowHalf (n : Nat) : Bool := 0xDC00 ≤ n && n < 0xE000

/-- The characters of units, each high half joined with the low half that follows it. -/
def joinUnits : List Nat → Option (List Char)
  | [] => some []
  | [n] => if isHighHalf n || isLowHalf n then none else some [Char.ofNat n]
  | n :: m :: rest =>
    if isHighHalf n then
      if isLowHalf m then
        (joinUnits rest).map (Char.ofNat (0x10000 + (n - 0xD800) * 0x400 + (m - 0xDC00)) :: ·)
      else none
    else if isLowHalf n then none
    else (joinUnits (m :: rest)).map (Char.ofNat n :: ·)

/-! Numbers. -/

/-- The number `coefficient * 10 ^ power`, its sign left aside. -/
structure Magnitude where
  coefficient : Nat
  power : Int

def readPower : List Char → Option Int
  | [] => some 0
  | mark :: rest =>
    let (sign, digits) : Int × List Char := match rest with
      | '-' :: digits => (-1, digits)
      | '+' :: digits => (1, digits)
      | digits => (1, digits)
    if (mark = 'e' ∨ mark = 'E') ∧ digits ≠ [] ∧ digits.all Char.isDigit then
      some (sign * digitsValue 0 digits)
    else none

def readPlaces : List Char → Option (List Char × List Char)
  | '.' :: rest =>
    let places := rest.takeWhile Char.isDigit
    if places.isEmpty then none else some (places, rest.drop places.length)
  | cs => some ([], cs)

/-- Reads a number in which only a zero alone starts with a zero. -/
def readMagnitude (cs : List Char) : Option Magnitude := do
  let cs := match cs with
    | '-' :: rest => rest
    | _ => cs
  let whole := cs.takeWhile Char.isDigit
  if whole.isEmpty || (whole.head? == some '0' && whole.length != 1) then none
  let (places, rest) ← readPlaces (cs.drop whole.length)
  let power ← readPower rest
  return ⟨digitsValue 0 (whole ++ places), power - places.length⟩

/-- The least number that is rounded to infinity. -/
def infinityBound : Nat := Nat.pow 2 1024 - Nat.pow 2 970

/-- Whether the number is below the bound. The number of digits decides, except close to it. -/
def Magnitude.isFinite (m : Magnitude) : Bool :=
  let digits : Int := (Nat.toDigits 10 m.coefficient).length + m.power
  if m.coefficient = 0 ∨ digits ≤ 308 then true
  else if 309 < digits then false
  else m.coefficient * tenTo m.power.toNat < infinityBound * tenTo (-m.power).toNat

def isNumberChar (c : Char) : Bool := c.isDigit || ['+', '-', '.', 'e', 'E'].contains c

def readNumber (cs : List Char) : Option Json :=
  (readMagnitude cs).map fun m => if m.isFinite then .number (String.ofList cs) else .senseless

def readWord (cs : List Char) : Option Json :=
  match String.ofList cs with
  | "null" => some .null
  | "true" => some (.boolean true)
  | "false" => some (.boolean false)
  | _ => none

def punctuation? : Char → Option Token
  | '[' => some .openArray
  | ']' => some .closeArray
  | '\x7b' => some .openObject
  | '\x7d' => some .closeObject
  | ',' => some .comma
  | ':' => some .colon
  | _ => none

/-- The token that starts with `c`, with the number of characters that it has in `rest`. -/
def readToken (c : Char) (rest : List Char) : Option (Token × Nat) :=
  match punctuation? c with
  | some token => some (token, 0)
  | none =>
    if c = '"' then
      (readUnits rest).map fun (units, n) => (.string ((joinUnits units).map String.ofList), n)
    else if c.isDigit || c == '-' then
      let tail := rest.takeWhile isNumberChar
      (readNumber (c :: tail)).map fun value => (.scalar value, tail.length)
    else
      let tail := rest.takeWhile Char.isAlpha
      (readWord (c :: tail)).map fun value => (.scalar value, tail.length)

/-- The tokens of a text, if it has nothing but tokens and white space. -/
def tokensOf (text : List Char) : Option (List Token) :=
  match _cut : text.dropWhile isSpace with
  | [] => some []
  | c :: rest => do
    let (token, n) ← readToken c rest
    return token :: (← tokensOf (rest.drop n))
termination_by text.length
decreasing_by
  have shorter := (text.dropWhile_suffix isSpace).length_le
  rw [_cut, List.length_cons] at shorter
  rw [List.length_drop]
  omega

end Json
end RecordFilter
