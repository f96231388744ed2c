import RecordFilter.Condition
import RecordFilter.Predicate

/-!
Compiling a condition to a predicate. The field of a comparison decides which operators it takes
and how its literals are read; each collection on the way to the field becomes a quantifier. The
first comparison that cannot be compiled is reported.
-/
namespace RecordFilter

/-- A use of an operator that a field does not support. -/
inductive Usage where
  | plain (op : CompareOp)
  | ignoringCase (op : CompareOp)
  | withNull (op : CompareOp)
  /-- Said in other words. -/
  | described (text : String)
  deriving DecidableEq

def Usage.describe : Usage → String
  | .plain op => op.name
  | .ignoringCase op => op.name ++ " (case-insensitive)"
  | .withNull op => op.name ++ " with null"
  | .described text => text

/-- What a literal should have been. -/
inductive Demand where
  | number
  | truthValue
  | temporal
  | variant (variants : List String)
  /-- Said in other words. -/
  | described (text : String)
  deriving DecidableEq

def Demand.describe : Demand → String
  | .number => "not a number"
  | .truthValue => "expected `true` or `false`"
  | .temporal => "expected YYYY-MM-DD or an ISO 8601 date-time"
  | .variant variants => "expected one of " ++ ", ".intercalate variants
  | .described text => text

inductive CompileError where
  | unknownField (path : String) (span : Span)
  | typeMismatch (path : String) (expected : ValueKind) (found : LiteralKind) (literal : String)
      (span : Span)
  | unsupportedOperator (path : String) (usage : Usage) (kind : ValueKind) (span : Span)
  | invalidLiteral (path literal : String) (expected : ValueKind) (demand : Demand) (span : Span)
  | notComparable (path described : String) (span : Span)
  deriving DecidableEq

namespace CompileError

def message : CompileError → String
  | .unknownField path _ => s!"unknown field `{path}`"
  | .typeMismatch path expected found literal _ =>
    s!"field `{path}` is a {expected.name} field but `{literal}` is a {found.name} literal"
  | .unsupportedOperator path usage kind _ =>
    s!"operator {usage.describe} is not supported on {kind.name} field `{path}`"
  | .invalidLiteral path literal expected demand _ =>
    s!"invalid {expected.name} literal `{literal}` for field `{path}`: {demand.describe}"
  | .notComparable path described _ =>
    s!"field `{path}` is a {described} and can't be compared directly"

def span : CompileError → Span
  | .unknownField _ span | .typeMismatch _ _ _ _ span | .unsupportedOperator _ _ _ span
  | .invalidLiteral _ _ _ _ span | .notComparable _ _ span => span

end CompileError

/-- How names are matched and which quantifier a collection gets. -/
structure CompileOptions where
  caseSensitive : Bool := true
  quantifier : Quantifier := .any

def Settings.compileOptions (s : Settings) : CompileOptions where
  caseSensitive := s.caseSensitiveFields
  quantifier := s.quantifier

/-- The field at a path, or the error for the place where the path is written. -/
def resolveField (caseSensitive : Bool) (shape : Shape) (path : String) (span : Span) :
    Except CompileError ResolvedField :=
  match shape.resolve caseSensitive path with
  | .ok field => .ok field
  | .error .unknown => .error (.unknownField path span)
  | .error (.notScalar described) => .error (.notComparable path described span)

/-- Which operators a kind of value has. -/
def ValueKind.supports : ValueKind → CompareOp → Bool
  | .string, _ => true
  | .number, op | .date, op => !op.isTextMatch
  | .boolean, op | .enumeration, op => !op.isTextMatch && !op.isOrdering

/-- Whether letter case can be ignored in values of this kind. -/
def ValueKind.hasCase : ValueKind → Bool
  | .string | .enumeration => true
  | .number | .boolean | .date => false

/-- Operators are checked before any literal is looked at. -/
def checkOperator (c : Comparison) (kind : ValueKind) : Except CompileError Unit :=
  if !kind.supports c.op then .error (.unsupportedOperator c.field (.plain c.op) kind c.span)
  else if c.ignoreCase && !kind.hasCase then
    .error (.unsupportedOperator c.field (.ignoringCase c.op) kind c.span)
  else .ok ()

/-- The truth value that a text spells in any case. -/
def readTruthValue (text : String) : Option Bool :=
  if sameIgnoringCase text "true" then some true
  else if sameIgnoringCase text "false" then some false
  else none

/-- The variant that a text names: exactly, or in another case if that is allowed. -/
def findVariant (variants : List String) (ignoreCase : Bool) (text : String) : Option String :=
  (variants.find? fun v => v == text).or <|
    if ignoreCase then variants.find? fun v => sameIgnoringCase v text else none

/-- A literal as a value of the field that it is compared with. -/
def coerce (c : Comparison) (field : ResolvedField) (l : Literal) : Except CompileError Value :=
  let orDemand (demand : Demand) : Option Value → Except CompileError Value
    | some value => .ok value
    | none => .error (.invalidLiteral c.field l.text field.kind demand l.span)
  match field.kind, l.kind with
  | _, .null => .ok .null
  | .string, .string => .ok (.text l.text)
  | .number, .number | .number, .string =>
    orDemand .number <| (Decimal.read (trimBlanks l.text.toList)).map .number
  | .boolean, .boolean => .ok (.boolean (l.text == "true"))
  | .boolean, .string => orDemand .truthValue <| (readTruthValue l.text).map .boolean
  | .date, .date | .date, .string =>
    orDemand .temporal <| (Temporal.read l.text.toList).map .temporal
  | .enumeration, .string =>
    orDemand (.variant field.variants) <| (findVariant field.variants c.ignoreCase l.text).map .text
  | expected, found => .error (.typeMismatch c.field expected found l.text l.span)

def coerceAll (c : Comparison) (field : ResolvedField) :
    List Literal → Except CompileError (List Value)
  | [] => .ok []
  | l :: ls => do
    let value ← coerce c field l
    return value :: (← coerceAll c field ls)

/-- A single null is only compared for equality. -/
def coerceOperand (c : Comparison) (field : ResolvedField) : Except CompileError Value :=
  match c.operand with
  | .single l =>
    if l.kind = .null ∧ !c.op.isEquality then
      .error (.unsupportedOperator c.field (.withNull c.op) field.kind c.span)
    else coerce c field l
  | .list ls => (coerceAll c field ls).map .list

/-- Puts the quantifiers of the steps around a comparison. Names are gathered up to the next
collection; the levels of a collection of collections range over the element itself. -/
def quantify (q : Quantifier) (leaf : FieldPath → Predicate) (names : List String) :
    List Step → Predicate
  | [] => leaf ⟨names⟩
  | step :: rest =>
    match step.depth with
    | 0 => quantify q leaf (names ++ [step.name]) rest
    | levels + 1 =>
      .quantified q ⟨names ++ [step.name]⟩ <|
        Nat.repeat (.quantified q .element) levels (quantify q leaf [] rest)

def Comparison.compile (options : CompileOptions) (shape : Shape) (c : Comparison) :
    Except CompileError Predicate := do
  let field ← resolveField options.caseSensitive shape c.field c.fieldSpan
  checkOperator c field.kind
  let value ← coerceOperand c field
  let leaf path := Predicate.compare path field.kind c.op value c.ignoreCase
  return quantify options.quantifier leaf [] field.steps

/-- Groups leave no trace in the predicate. -/
def Condition.compile (options : CompileOptions) (shape : Shape) :
    Condition → Except CompileError Predicate
  | .comparison c => c.compile options shape
  | .and l r => do
    let left ← l.compile options shape
    return .and left (← r.compile options shape)
  | .or l r => do
    let left ← l.compile options shape
    return .or left (← r.compile options shape)
  | .group n => n.compile options shape

end RecordFilter
