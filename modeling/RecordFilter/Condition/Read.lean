import RecordFilter.Condition

/-!
Reading conditions from tokens. Connectives are read by strength: an operand takes in the
connectives that hold tighter than the one before it. The height of a condition is bounded, and
the bound is kept while reading, so that a text of any length is read with a bounded number of
nested calls.
-/
namespace RecordFilter

/-- The greatest height of a condition that is read. -/
def maxHeight : Nat := 256

/-- What would have been accepted. -/
inductive Expected where
  | comparison | connectiveOrEnd | fieldOrGroup | comparisonOp | literal
  | listStart | listSeparator | closingParen
  | singleLiteral (op : CompareOp)
  | nestingWithin (limit : Nat)
  /-- Said in other words. -/
  | described (text : String)
  deriving DecidableEq

def Expected.describe : Expected → String
  | .comparison => "a comparison"
  | .connectiveOrEnd => "a logical operator or end of input"
  | .fieldOrGroup => "a field path or `(`"
  | .comparisonOp => "a comparison operator"
  | .literal => "a literal value"
  | .listStart => "`[`"
  | .listSeparator => "`,` or `]`"
  | .closingParen => "`)`"
  | .singleLiteral op => s!"a single literal value for {op.name}"
  | .nestingWithin limit => s!"at most {limit} nested expressions"
  | .described text => text

/-- What stands there instead. -/
inductive Found where
  | token (kind : TokenKind)
  | nothing
  /-- Said in other words. -/
  | described (text : String)
  deriving DecidableEq

def Found.describe : Found → String
  | .token kind => kind.describe
  | .nothing => TokenKind.endOfInput.describe
  | .described text => text

structure GrammarError where
  expected : Expected
  found : Found
  span : Span
  deriving DecidableEq

def GrammarError.message (e : GrammarError) : String :=
  s!"expected {e.expected.describe}, found {e.found.describe} at {e.span.describe}"

/-- Tokens that are still to be read, with the groups that have been opened around them. -/
structure Reader where
  pending : List Token
  openGroups : Nat := 0
  /-- Where the last token ends. -/
  finish : Span := {}

namespace Reader

def ofTokens (tokens : List Token) : Reader where
  pending := tokens
  finish := (tokens.getLast?.map fun t => t.span.after).getD {}

/-- The error at the next token, or at the end if there is none. -/
def errorAt (finish : Span) (expected : Expected) : List Token → GrammarError
  | [] => ⟨expected, .nothing, finish⟩
  | token :: _ => ⟨expected, .token token.kind, token.span⟩

/-- A token that makes the condition too high. -/
def tooHigh (token : Token) : GrammarError :=
  ⟨.nestingWithin maxHeight, .token token.kind, token.span⟩

/-- How reading a part ends. A failure tells which tokens are left and how many groups are open. -/
inductive Outcome (α : Type) where
  | done (value : α) (rest : List Token)
  | failed (error : GrammarError) (rest : List Token) (openGroups : Nat)
  /-- More nested calls are needed than were granted. -/
  | outOfCalls

/-- Literals with commas between them, up to the closing bracket. Gives their list and the span of
the bracket, or what is expected at which tokens. -/
def literals : List Token → Except (Expected × List Token) (List Literal × Span × List Token)
  | ⟨.literal kind text, span⟩ :: ⟨.closeBracket, close⟩ :: rest =>
    .ok ([⟨kind, text, span⟩], close, rest)
  | ⟨.literal kind text, span⟩ :: ⟨.comma, _⟩ :: rest =>
    (literals rest).map fun (ls, close, rest) => (⟨kind, text, span⟩ :: ls, close, rest)
  | ⟨.literal _ _, _⟩ :: rest => .error (.listSeparator, rest)
  | ts => .error (.literal, ts)

/-- The operand of an operator, with its span. -/
def operand (op : CompareOp) (ts : List Token) :
    Except (Expected × List Token) (Operand × Span × List Token) :=
  if op.takesList then
    match ts with
    | ⟨.openBracket, start⟩ :: ⟨.closeBracket, close⟩ :: rest =>
      .ok (.list [], start.union close, rest)
    | ⟨.openBracket, start⟩ :: rest =>
      (literals rest).map fun (ls, close, rest) => (.list ls, start.union close, rest)
    | _ => .error (.listStart, ts)
  else
    match ts with
    | ⟨.openBracket, _⟩ :: _ => .error (.singleLiteral op, ts)
    | ⟨.literal kind text, span⟩ :: rest => .ok (.single ⟨kind, text, span⟩, span, rest)
    | _ => .error (.literal, ts)

/-- The comparison of a field, which has been read, with what follows it. -/
def comparison (field : String) (fieldSpan : Span) (ts : List Token) :
    Except (Expected × List Token) (Comparison × List Token) :=
  match ts with
  | ⟨.comparison op ignoreCase, _⟩ :: rest =>
    (operand op rest).map fun (operand, span, rest) =>
      (⟨field, fieldSpan, op, ignoreCase, operand, fieldSpan.union span⟩, rest)
  | _ => .error (.comparisonOp, ts)

/-- A condition and its height. -/
abbrev Sized := Condition × Nat

/-- A reader of conditions below a connective: the groups that are open, the least strength that it
takes in, and the tokens. -/
abbrev Nested := Nat → Nat → List Token → Outcome Sized

/-- A comparison or a group. -/
def primary (nested : Nested) (finish : Span) (openGroups : Nat) (ts : List Token) :
    Outcome Sized :=
  match ts with
  | ⟨.openParen, span⟩ :: rest =>
    let paren : Token := ⟨.openParen, span⟩
    if maxHeight ≤ openGroups then .failed (tooHigh paren) rest openGroups
    else match nested (openGroups + 1) 0 rest with
      | .done (inner, height) (⟨.closeParen, _⟩ :: rest) =>
        if maxHeight ≤ height then .failed (tooHigh paren) rest openGroups
        else .done (.group inner, height + 1) rest
      | .done _ rest => .failed (errorAt finish .closingParen rest) rest openGroups
      | other => other
  | ⟨.field path, span⟩ :: rest =>
    match comparison path span rest with
    | .ok (c, rest) => .done (.comparison c, 1) rest
    | .error (expected, rest) => .failed (errorAt finish expected rest) rest openGroups
  | _ => .failed (errorAt finish .fieldOrGroup ts) ts openGroups

/-- Goes on from a left operand with all connectives of at least the given strength. The first
argument counts the connectives that may follow, for which the number of tokens is enough. -/
def climb (nested : Nested) (openGroups least : Nat) : Nat → Sized → List Token → Outcome Sized
  | 0, left, ts => .done left ts
  | more + 1, (left, height), ts =>
    match ts with
    | ⟨.logical op, span⟩ :: rest =>
      if op.strength < least then .done (left, height) ts
      else match nested openGroups (op.strength + 1) rest with
        | .done (right, rightHeight) rest =>
          let joined := max height rightHeight + 1
          if maxHeight < joined then .failed (tooHigh ⟨.logical op, span⟩) rest openGroups
          else climb nested openGroups least more (.join op left right, joined) rest
        | other => other
    | _ => .done (left, height) ts

/-- Reads a condition with at most the given number of nested calls of itself. -/
def condition (finish : Span) : Nat → Nested
  | 0, _, _, _ => .outOfCalls
  | calls + 1, openGroups, least, ts =>
    match primary (condition finish calls) finish openGroups ts with
    | .done left rest => climb (condition finish calls) openGroups least rest.length left rest
    | other => other

/-- Enough nested calls for every list of tokens: three in each group, one for each strength. -/
def callLimit : Nat := 3 * (maxHeight + 1)

/-- Whether the tokens end here. -/
def atEnd : List Token → Bool
  | [] => true
  | token :: _ => token.kind == .endOfInput

/-- Reads one condition up to the end of the input. The reader goes on where this stopped; groups
that a failure left open stay counted. -/
def read (r : Reader) : Except GrammarError Condition × Reader :=
  if atEnd r.pending then (.error (errorAt r.finish .comparison r.pending), r)
  else match condition r.finish callLimit r.openGroups 0 r.pending with
    | .done (node, _) rest =>
      let r := { r with pending := rest }
      if atEnd rest then (.ok node, r)
      else (.error (errorAt r.finish .connectiveOrEnd rest), r)
    | .failed error rest openGroups => (.error error, { r with pending := rest, openGroups })
    | .outOfCalls => (.error (errorAt r.finish (.nestingWithin maxHeight) r.pending), r)

end Reader

/-- The condition that a list of tokens spells. -/
def Condition.ofTokens (tokens : List Token) : Except GrammarError Condition :=
  (Reader.ofTokens tokens).read.1

end RecordFilter
