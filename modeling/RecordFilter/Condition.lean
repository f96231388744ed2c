import RecordFilter.Settings
import RecordFilter.Token

/-!
Conditions as they are written: comparisons joined by connectives, with the groups that the
text puts in parentheses. Literals keep their text; what they mean depends on the field that
they are compared with.
-/
namespace RecordFilter

structure Literal where
  kind : LiteralKind
  text : String
  span : Span
  deriving DecidableEq

inductive Operand where
  | single (literal : Literal)
  | list (literals : List Literal)
  deriving DecidableEq

/-- A field path, an operator and what the field is compared with. -/
structure Comparison where
  field : String
  fieldSpan : Span
  op : CompareOp
  ignoreCase : Bool
  operand : Operand
  span : Span
  deriving DecidableEq

inductive Condition where
  | comparison (c : Comparison)
  | and (left right : Condition)
  | or (left right : Condition)
  | group (inner : Condition)
  deriving DecidableEq

namespace Condition

def join : LogicalOp → Condition → Condition → Condition
  | .and => .and
  | .or => .or

/-- The condition inside all groups that enclose the whole of it. -/
def ungrouped : Condition → Condition
  | .group inner => inner.ungrouped
  | n => n

/-- The comparisons from left to right. -/
def comparisons : Condition → List Comparison
  | .comparison c => [c]
  | .and l r | .or l r => l.comparisons ++ r.comparisons
  | .group n => n.comparisons

def comparisonCount : Condition → Nat
  | .comparison _ => 1
  | .and l r | .or l r => l.comparisonCount + r.comparisonCount
  | .group n => n.comparisonCount

/-- The number of nodes on the longest way down. -/
def height : Condition → Nat
  | .comparison _ => 1
  | .and l r | .or l r => max l.height r.height + 1
  | .group n => n.height + 1

end Condition

/-! Text. A condition is written without parentheses of its own, so its groups are the only ones. -/

/-- Quotes and backslashes in a string are written after a backslash. -/
def guarded (c : Char) : List Char := if c = '"' || c = '\\' then ['\\', c] else [c]

def Literal.write (l : Literal) : String :=
  match l.kind with
  | .string => String.ofList ('"' :: l.text.toList.flatMap guarded ++ ['"'])
  | _ => l.text

def Operand.write : Operand → String
  | .single l => l.write
  | .list ls => "[" ++ ", ".intercalate (ls.map Literal.write) ++ "]"

def Comparison.write (s : Spelling) (c : Comparison) : String :=
  c.field ++ " " ++ s.comparisonText c.op c.ignoreCase ++ " " ++ c.operand.write

/-- The text of a condition with the operators of a spelling. -/
def Condition.write (s : Spelling) : Condition → String
  | .comparison c => c.write s
  | .and l r => l.write s ++ " " ++ s.logical .and ++ " " ++ r.write s
  | .or l r => l.write s ++ " " ++ s.logical .or ++ " " ++ r.write s
  | .group n => "(" ++ n.write s ++ ")"

/-- The text of a condition with the usual operators. -/
def Condition.text (n : Condition) : String := n.write .standard

end RecordFilter
