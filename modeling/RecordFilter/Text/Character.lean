import RecordFilter.Unicode.Alphabetic
import RecordFilter.Unicode.Numeric

/-!
Character classes of filter text. Blanks separate tokens; words are made of letters, numbers
and the underscore. Letters, numbers and blanks are those of Unicode, while letter case is
compared in ASCII only.
-/
namespace RecordFilter

/-- Membership in ranges listed in increasing order. -/
def inRanges (n : Nat) : List (Nat × Nat) → Bool
  | [] => false
  | (low, high) :: rest => if n < low then false else n ≤ high || inRanges n rest

/-- The Unicode property White_Space. -/
def blankRanges : List (Nat × Nat) := [
  (0x9, 0xD), (0x20, 0x20), (0x85, 0x85), (0xA0, 0xA0), (0x1680, 0x1680), (0x2000, 0x200A),
  (0x2028, 0x2029), (0x202F, 0x202F), (0x205F, 0x205F), (0x3000, 0x3000)]

def isBlank (c : Char) : Bool := inRanges c.toNat blankRanges

def isLetter (c : Char) : Bool := inRanges c.toNat Unicode.alphabeticRanges

def isNumeric (c : Char) : Bool := inRanges c.toNat Unicode.numericRanges

/-- The characters of a field name. -/
def isWordChar (c : Char) : Bool := isLetter c || isNumeric c || c == '_'

/-- A field name does not start with a number. -/
def isWordStart (c : Char) : Bool := isLetter c || c == '_'

/-- Text without the blanks at its two ends. -/
def trimBlanks (cs : List Char) : List Char :=
  ((cs.dropWhile isBlank).reverse.dropWhile isBlank).reverse

/-- Equality of texts that ignores the case of ASCII letters. -/
def sameIgnoringCase (s t : String) : Bool := s.toList.map Char.toLower == t.toList.map Char.toLower

theorem sameIgnoringCase_iff {s t : String} : sameIgnoringCase s t = true ↔
    s.toList.map Char.toLower = t.toList.map Char.toLower := by
  simp [sameIgnoringCase]

/-- Whether `text` starts with the first argument, the case of ASCII letters ignored. -/
def startsIgnoringCase : List Char → List Char → Bool
  | [], _ => true
  | _ :: _, [] => false
  | p :: ps, c :: cs => p.toLower == c.toLower && startsIgnoringCase ps cs

@[simp] theorem startsIgnoringCase_nil (text : List Char) : startsIgnoringCase [] text = true := rfl

theorem length_le_of_startsIgnoringCase {ps text : List Char}
    (h : startsIgnoringCase ps text = true) : ps.length ≤ text.length := by
  induction ps generalizing text with
  | nil => exact Nat.zero_le _
  | cons p ps ih =>
    cases text with
    | nil => simp [startsIgnoringCase] at h
    | cons c cs =>
      simp only [startsIgnoringCase, Bool.and_eq_true] at h
      have := ih h.2
      simp only [List.length_cons]
      omega

end RecordFilter
