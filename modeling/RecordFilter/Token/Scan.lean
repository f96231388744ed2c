import RecordFilter.Decimal
import RecordFilter.Text.Escape
import RecordFilter.Text.Measure
import RecordFilter.Token
import RecordFilter.Vocabulary

/-!
Cutting a filter text into tokens. What an operator word can look like depends on where it
stands, so the scan keeps track of what the token before lets one expect: a comparison operator
after a field, a connective after an operand. Elsewhere such a word is read as a field or a
literal, and as an operator only if it is neither.
-/
namespace RecordFilter

/-- Why no token can be read. -/
inductive ScanFault where
  | unterminatedString
  | malformedLiteral (text : String)
  | malformedPath (text : String)
  | unexpectedChar (c : Char)
  deriving DecidableEq

def ScanFault.message : ScanFault → String
  | .unterminatedString => "unterminated string literal"
  | .malformedLiteral text => s!"malformed literal `{text}`"
  | .malformedPath text => s!"malformed field path `{text}`"
  | .unexpectedChar c => s!"unrecognized character {quotedChar c}"

structure ScanError where
  position : Nat
  fault : ScanFault
  deriving DecidableEq

def ScanError.message (e : ScanError) : String := s!"{e.fault.message} at offset {e.position}"

/-- What the next token is likely to be. -/
inductive Expectancy where
  | field | comparison | operand | connective
  deriving DecidableEq

def Expectancy.after : TokenKind → Expectancy
  | .field _ => .comparison
  | .comparison _ _ | .openBracket | .comma => .operand
  | .literal _ _ | .closeBracket | .closeParen => .connective
  | .openParen | .logical _ | .endOfInput => .field

/-- A token kind with the number of characters that the token has after its first one. -/
abbrev Lexeme := TokenKind × Nat

def comparisonLexeme? (v : Vocabulary) (text : List Char) : Option Lexeme :=
  (v.matchComparison text).map fun m => (.comparison m.op m.ignoreCase, m.length - 1)

def logicalLexeme? (v : Vocabulary) (text : List Char) : Option Lexeme :=
  (v.matchLogical text).map fun m => (.logical m.1, m.2 - 1)

/-- The operator that is expected here, if it is here. -/
def expectedLexeme? (v : Vocabulary) (e : Expectancy) (text : List Char) : Option Lexeme :=
  match e with
  | .comparison => comparisonLexeme? v text
  | .connective => logicalLexeme? v text
  | .field | .operand => none

/-- How far a string has been read. There is no buffer before the first escape: up to there the
content is a piece of the text as it stands. -/
structure StringProgress where
  passed : Nat := 0
  buffer : Option String := none

namespace StringProgress

/-- The content of what has been read of `whole`. -/
def content (p : StringProgress) (whole : List Char) : String :=
  p.buffer.getD (String.ofList (whole.take p.passed))

/-- A character that stands for itself goes into the buffer, if there is one. -/
def keep (p : StringProgress) (c : Char) : StringProgress :=
  ⟨p.passed + 1, p.buffer.map (·.push c)⟩

/-- An escaped character goes into the buffer without its backslash. -/
def unescape (p : StringProgress) (whole : List Char) (c : Char) : StringProgress :=
  ⟨p.passed + 2, some ((p.content whole).push c)⟩

end StringProgress

/-- Reads on up to the closing quote. A backslash before a quote or a backslash is taken away; any
other backslash stands for itself. Gives the content and the number of characters read. -/
def readStringFrom (whole : List Char) (p : StringProgress) : List Char → Option (String × Nat)
  | [] => none
  | '"' :: _ => some (p.content whole, p.passed + 1)
  | '\\' :: '"' :: rest => readStringFrom whole (p.unescape whole '"') rest
  | '\\' :: '\\' :: rest => readStringFrom whole (p.unescape whole '\\') rest
  | c :: rest => readStringFrom whole (p.keep c) rest

/-- Reads what follows an opening quote. -/
def readString (text : List Char) : Option (String × Nat) := readStringFrom text {} text

/-- The characters of numbers and dates. -/
def isNumberChar (c : Char) : Bool := c.isAlphanum || ['.', ':', '+', '-'].contains c

/-- Four digits and a hyphen open a date. -/
def looksLikeDate : List Char → Bool
  | a :: b :: c :: d :: '-' :: _ => a.isDigit && b.isDigit && c.isDigit && d.isDigit
  | _ => false

/-- A number without the plus sign in front. -/
def withoutPlus : List Char → List Char
  | '+' :: rest => rest
  | cs => cs

def numberKind? (text : List Char) : Except ScanFault TokenKind :=
  if (Decimal.read (withoutPlus text)).isSome then
    .ok (.literal .number (String.ofList (withoutPlus text)))
  else if looksLikeDate text then .ok (.literal .date (String.ofList text))
  else .error (.malformedLiteral (String.ofList text))

/-- The keywords are case-sensitive. No segment of a path may be empty. -/
def wordKind? (text : List Char) : Except ScanFault TokenKind :=
  let word := String.ofList text
  if word = "true" ∨ word = "false" then .ok (.literal .boolean word)
  else if word = "null" then .ok (.literal .null word)
  else if (text.splitOn '.').any List.isEmpty then .error (.malformedPath word)
  else .ok (.field word)

def punctuation? : Char → Option TokenKind
  | '(' => some .openParen
  | ')' => some .closeParen
  | '[' => some .openBracket
  | ']' => some .closeBracket
  | ',' => some .comma
  | _ => none

/-- Whether a number starts here: with a digit, or with a sign before a digit. -/
def startsNumber (c : Char) (rest : List Char) : Bool :=
  c.isDigit || ((c == '-' || c == '+') && rest.head?.any Char.isDigit)

/-- An operator where none is expected, which the grammar is left to report. -/
def strayLexeme (v : Vocabulary) (c : Char) (rest : List Char) : Except ScanFault Lexeme :=
  match (logicalLexeme? v (c :: rest)).or (comparisonLexeme? v (c :: rest)) with
  | some lexeme => .ok lexeme
  | none => .error (.unexpectedChar c)

/-- The token that starts with `c` and goes on in `rest`. -/
def readLexeme (v : Vocabulary) (e : Expectancy) (c : Char) (rest : List Char) :
    Except ScanFault Lexeme :=
  match expectedLexeme? v e (c :: rest) with
  | some lexeme => .ok lexeme
  | none =>
    match punctuation? c with
    | some kind => .ok (kind, 0)
    | none =>
      if c = '"' then
        match readString rest with
        | some (content, n) => .ok (.literal .string content, n)
        | none => .error .unterminatedString
      else if startsNumber c rest then do
        let tail := rest.takeWhile isNumberChar
        return (← numberKind? (c :: tail), tail.length)
      else if isWordStart c then do
        let tail := rest.takeWhile fun d => isWordChar d || d == '.'
        return (← wordKind? (c :: tail), tail.length)
      else strayLexeme v c rest

theorem length_lt_of_dropWhile_eq {p : Char → Bool} {text rest : List Char} {c : Char}
    (h : text.dropWhile p = c :: rest) : rest.length < text.length := by
  have shorter := (text.dropWhile_suffix p).length_le
  rw [h, List.length_cons] at shorter
  omega

/-- A scan that has stopped between two tokens. -/
structure Scanner where
  expected : Expectancy := .field
  /-- The number of bytes before the rest. -/
  offset : Nat := 0
  rest : List Char
  /-- The end of the input or an error has been given. -/
  finished : Bool := false

namespace Scanner

def ofText (text : String) : Scanner := { rest := text.toList }

/-- The next item, if there is one, and the scanner after it. The last item is the end of the input
or the first error. -/
def next (v : Vocabulary) (s : Scanner) : Option (Except ScanError Token) × Scanner :=
  if s.finished then (none, s)
  else
    let start := s.offset + byteSize (s.rest.takeWhile isBlank)
    match s.rest.dropWhile isBlank with
    | [] => (some (.ok ⟨.endOfInput, ⟨start, start⟩⟩),
        { s with offset := start, rest := [], finished := true })
    | c :: rest =>
      match readLexeme v s.expected c rest with
      | .error fault => (some (.error ⟨start, fault⟩),
          { s with offset := start, rest := c :: rest, finished := true })
      | .ok (kind, n) =>
        let stop := start + byteSize (c :: rest.take n)
        (some (.ok ⟨kind, ⟨start, stop⟩⟩),
          { expected := .after kind, offset := stop, rest := rest.drop n })

/-- More than the number of items to come. -/
def remaining (s : Scanner) : Nat := if s.finished then 0 else s.rest.length + 1

theorem remaining_lt_of_next {v : Vocabulary} {s s' : Scanner} {item : Except ScanError Token}
    (h : s.next v = (some item, s')) : s'.remaining < s.remaining := by
  unfold next at h
  split at h
  · cases h
  · next hfinished =>
    have hs : s.remaining = s.rest.length + 1 := by rw [remaining, if_neg hfinished]
    rw [hs]
    split at h
    · cases h
      exact Nat.succ_pos _
    · next c rest hdrop =>
      split at h
      · cases h
        exact Nat.succ_pos _
      · next kind n hread =>
        cases h
        have hshorter := length_lt_of_dropWhile_eq hdrop
        have hrest : (rest.drop n).length ≤ rest.length := (List.drop_suffix n rest).length_le
        simp only [remaining, Bool.false_eq_true, if_false]
        omega

/-- All items that are still to come. -/
def steps (v : Vocabulary) (s : Scanner) : List (Except ScanError Token) :=
  match _item : s.next v with
  | (none, _) => []
  | (some item, s') => item :: s'.steps v
termination_by s.remaining
decreasing_by exact remaining_lt_of_next _item

end Scanner

/-- The tokens of `text`, which starts at byte `offset`. The list ends with the end of the input
or with the first error. -/
def scanFrom (v : Vocabulary) (e : Expectancy) (offset : Nat) (text : List Char) :
    List (Except ScanError Token) :=
  Scanner.steps v { expected := e, offset, rest := text }

/-- Every step of the scan of a whole text. -/
def scan (v : Vocabulary) (text : String) : List (Except ScanError Token) :=
  (Scanner.ofText text).steps v

/-- All steps as tokens, or the first error among them. -/
def allTokens : List (Except ScanError Token) → Except ScanError (List Token)
  | [] => .ok []
  | .error e :: _ => .error e
  | .ok token :: rest => (allTokens rest).map (token :: ·)

/-- The tokens of a text, the last of which is the end of the input. -/
def tokens (v : Vocabulary) (text : String) : Except ScanError (List Token) :=
  allTokens (scan v text)

end RecordFilter
