import RecordFilter.Text.Digits

/-!
Decimal numbers as they are written: a sign, a whole coefficient below `2 ^ 96` and a scale of at
most 28 digits after the point. Trailing zeros are kept, and equality looks through them. It also
looks through the sign of zero: no zero is read with a minus sign, but an exponent can round a
negative number to zero, and then the sign stays.
-/
namespace RecordFilter

/-- The number `coefficient / 10 ^ scale`, or its opposite. -/
structure Decimal where
  negative : Bool
  coefficient : Nat
  scale : Nat
  deriving DecidableEq

namespace Decimal

def coefficientBound : Nat := Nat.pow 2 96

def maxScale : Nat := 28

/-- Below this bound a coefficient is short: it and one more digit fit a 64-bit word with room to
spare. -/
def shortBound : Nat := (Nat.pow 2 64 - 1) / 10 - 255

/-- The digits read so far. Places count the digits after the point and are absent before it. -/
structure Progress where
  coefficient : Nat := 0
  places : Option Nat := none
  started : Bool := false
  /-- The last character was an underscore. -/
  separated : Bool := false

/-- All places that a scale can count are taken. -/
def Progress.isFull (p : Progress) : Bool := p.places.any (maxScale ≤ ·)

/-- The digits before the last one are short. -/
def Progress.isShort (p : Progress) : Bool := p.coefficient / 10 < shortBound

/-- A next digit, which makes the coefficient `next`, can be taken. When no place is left, only an
underscore makes room for one more. -/
def Progress.hasRoom (p : Progress) (next : Nat) : Bool :=
  next < coefficientBound && (p.separated || !p.isFull)

def Progress.take (p : Progress) (next : Nat) : Progress :=
  ⟨next, p.places.map (· + 1), true, false⟩

/-- Scales are counted from zero again after the greatest one. -/
def countedScale (places : Nat) : Nat := places % (maxScale + 1)

/-- Ends a number at a digit that has no room. Digits after the point are rounded half up there;
when that carries out of the bound, one more place is given up. -/
def Progress.roundOff (p : Progress) (digit : Nat) (rest : List Char) : Option (Nat × Nat) :=
  match p.places with
  | none => none
  | some places =>
    if !rest.all (fun c => c.isDigit || c == '_') then none
    else if digit < 5 then some (p.coefficient, countedScale places)
    else if p.coefficient + 1 < coefficientBound then some (p.coefficient + 1, countedScale places)
    else if places = 0 then none
    else some ((p.coefficient + 5) / 10, countedScale (places - 1))

/-- Reads digits with at most one point. Underscores may stand anywhere after the first digit. After
the last place an underscore ends a number whose digits are short. -/
def magnitude (p : Progress) : List Char → Option (Nat × Nat)
  | [] => if p.started then some (p.coefficient, countedScale (p.places.getD 0)) else none
  | c :: rest =>
    if c.isDigit then
      let next := p.coefficient * 10 + digitValue c
      if p.hasRoom next then magnitude (p.take next) rest else p.roundOff (digitValue c) rest
    else if c == '_' && p.started then
      if p.isFull && p.isShort then p.roundOff 0 rest else magnitude { p with separated := true } rest
    else if c == '.' && p.places.isNone then
      magnitude { p with places := some 0, separated := false } rest
    else none

/-- A number that has been read after its sign. A minus sign before zero is dropped. -/
def ofMagnitude (negative : Bool) (m : Nat × Nat) : Decimal := ⟨negative && m.1 != 0, m.1, m.2⟩

/-- Reads an optional sign and a magnitude. -/
def readPlain (cs : List Char) : Option Decimal :=
  match cs with
  | '-' :: rest => (magnitude {} rest).map (ofMagnitude true)
  | '+' :: rest => (magnitude {} rest).map (ofMagnitude false)
  | _ => (magnitude {} cs).map (ofMagnitude false)

/-- The power of ten that is given after an exponent mark, its minus sign taken off. -/
def readExponent (cs : List Char) : Option Nat :=
  let digits := match cs with
    | '+' :: rest => rest
    | _ => cs
  if digits.isEmpty || !digits.all Char.isDigit then none
  else if digitsValue 0 digits ≤ maxScale then some (digitsValue 0 digits)
  else none

/-- The quotient by a power of ten, a half going up. -/
def roundedQuotient (c power : Nat) : Nat := (c + tenTo power / 2) / tenTo power

/-- Divides by `10 ^ e`. Places beyond the greatest scale are rounded off, and the sign is kept. -/
def scaleDown (d : Decimal) (e : Nat) : Decimal :=
  if d.scale + e ≤ maxScale then { d with scale := d.scale + e }
  else
    { d with
      coefficient := roundedQuotient d.coefficient (d.scale + e - maxScale)
      scale := maxScale }

/-- Multiplies by `10 ^ e`, if the result has room. -/
def scaleUp (d : Decimal) (e : Nat) : Option Decimal :=
  if e ≤ d.scale then some { d with scale := d.scale - e }
  else
    let c := d.coefficient * tenTo (e - d.scale)
    if c < coefficientBound then some { d with coefficient := c, scale := 0 } else none

def isExponentMark (c : Char) : Bool := c == 'e' || c == 'E'

/-- Reads a decimal followed by an exponent mark and a power of ten. -/
def readScientific (cs : List Char) : Option Decimal :=
  match cs.dropWhile fun c => !isExponentMark c with
  | [] => none
  | _ :: exponent => do
    let d ← readPlain (cs.takeWhile fun c => !isExponentMark c)
    match exponent with
    | '-' :: rest => return d.scaleDown (← readExponent rest)
    | _ => d.scaleUp (← readExponent exponent)

def read (cs : List Char) : Option Decimal :=
  match readPlain cs with
  | some d => some d
  | none => readScientific cs

/-- All digits of the scale are written, also zeros. -/
def text (d : Decimal) : String :=
  let digits := paddedDigits (d.scale + 1) d.coefficient
  let whole := digits.take (digits.length - d.scale)
  let sign := if d.negative then ['-'] else []
  let places := if d.scale = 0 then [] else '.' :: digits.drop (digits.length - d.scale)
  String.ofList (sign ++ whole ++ places)

/-- The number times `10 ^ scale`. -/
def signedCoefficient (d : Decimal) : Int :=
  if d.negative then -(d.coefficient : Int) else d.coefficient

/-- Whether two decimals are the same number. -/
def same (a b : Decimal) : Bool :=
  a.signedCoefficient * tenTo b.scale == b.signedCoefficient * tenTo a.scale

end Decimal
end RecordFilter
