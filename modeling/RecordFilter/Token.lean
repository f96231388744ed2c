import RecordFilter.Operator
import RecordFilter.Span

/-!
Tokens of a filter text and how messages name them.
-/
namespace RecordFilter

inductive LiteralKind where
  | string | number | boolean | date | null
  deriving DecidableEq

def LiteralKind.name : LiteralKind → String
  | .string => "string"
  | .number => "number"
  | .boolean => "boolean"
  | .date => "date"
  | .null => "null"

inductive TokenKind where
  /-- A field path with its dots. -/
  | field (path : String)
  /-- The text of a string literal is what stands between the quotes, without escapes. -/
  | literal (kind : LiteralKind) (text : String)
  | comparison (op : CompareOp) (ignoreCase : Bool)
  | logical (op : LogicalOp)
  | openParen | closeParen | openBracket | closeBracket | comma
  | endOfInput
  deriving DecidableEq

/-- Operators are named by their usual symbols, whatever the filter text spells them with. -/
def TokenKind.describe : TokenKind → String
  | .field path => s!"field `{path}`"
  | .literal .string text => s!"string literal \"{text}\""
  | .literal kind text => s!"{kind.name} literal `{text}`"
  | .comparison op false => s!"operator `{op.symbol}`"
  | .comparison op true => s!"operator `{op.symbol}` (case-insensitive)"
  | .logical op => s!"logical operator `{op.symbol}`"
  | .openParen => "`(`"
  | .closeParen => "`)`"
  | .openBracket => "`[`"
  | .closeBracket => "`]`"
  | .comma => "`,`"
  | .endOfInput => "end of input"

structure Token where
  kind : TokenKind
  span : Span
  deriving DecidableEq

end RecordFilter
