/-!
Decimal digits of natural numbers, read and written.
-/
namespace RecordFilter

def digitValue (c : Char) : Nat := c.toNat - '0'.toNat

/-- The number that a run of digits names, read on from `start`. -/
def digitsValue (start : Nat) (digits : List Char) : Nat :=
  digits.foldl (fun n c => n * 10 + digitValue c) start

/-- The digits of `n`, with zeros in front up to `width`. -/
def paddedDigits (width n : Nat) : List Char :=
  let digits := Nat.toDigits 10 n
  List.replicate (width - digits.length) '0' ++ digits

/-- A one with `n` zeros. -/
def tenTo (n : Nat) : Nat := Nat.pow 10 n

@[simp] theorem tenTo_zero : tenTo 0 = 1 := rfl
@[simp] theorem tenTo_succ (n : Nat) : tenTo (n + 1) = tenTo n * 10 := rfl

def padded (width n : Nat) : String := String.ofList (paddedDigits width n)

end RecordFilter
