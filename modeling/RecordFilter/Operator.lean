/-!
The operators of a filter: comparisons between a field and a literal, and the connectives
between comparisons. Their usual symbols can be respelled; the names cannot.
-/
namespace RecordFilter

inductive CompareOp where
  | equals | notEquals
  | greaterThan | greaterThanOrEqual | lessThan | lessThanOrEqual
  | contains | notContains | startsWith | notStartsWith | endsWith | notEndsWith
  | isIn | isNotIn
  deriving DecidableEq

namespace CompareOp

/-- Every comparison operator, in the order in which settings list them. -/
def all : List CompareOp := [
  .equals, .notEquals, .greaterThan, .greaterThanOrEqual, .lessThan, .lessThanOrEqual,
  .contains, .notContains, .startsWith, .notStartsWith, .endsWith, .notEndsWith,
  .isIn, .isNotIn]

theorem mem_all (op : CompareOp) : op ∈ all := by cases op <;> decide

def symbol : CompareOp → String
  | .equals => "=="
  | .notEquals => "!="
  | .greaterThan => ">"
  | .greaterThanOrEqual => ">="
  | .lessThan => "<"
  | .lessThanOrEqual => "<="
  | .contains => "@="
  | .notContains => "!@="
  | .startsWith => "_="
  | .notStartsWith => "!_="
  | .endsWith => "=_"
  | .notEndsWith => "!=_"
  | .isIn => "^^"
  | .isNotIn => "!^^"

def name : CompareOp → String
  | .equals => "Equals"
  | .notEquals => "NotEquals"
  | .greaterThan => "GreaterThan"
  | .greaterThanOrEqual => "GreaterThanOrEqual"
  | .lessThan => "LessThan"
  | .lessThanOrEqual => "LessThanOrEqual"
  | .contains => "Contains"
  | .notContains => "NotContains"
  | .startsWith => "StartsWith"
  | .notStartsWith => "NotStartsWith"
  | .endsWith => "EndsWith"
  | .notEndsWith => "NotEndsWith"
  | .isIn => "In"
  | .isNotIn => "NotIn"

/-- Whether the operand is a list of literals instead of one literal. -/
def takesList : CompareOp → Bool
  | .isIn | .isNotIn => true
  | _ => false

def isOrdering : CompareOp → Bool
  | .greaterThan | .greaterThanOrEqual | .lessThan | .lessThanOrEqual => true
  | _ => false

/-- Whether the operator looks inside a text. -/
def isTextMatch : CompareOp → Bool
  | .contains | .notContains | .startsWith | .notStartsWith | .endsWith | .notEndsWith => true
  | _ => false

def isEquality : CompareOp → Bool
  | .equals | .notEquals => true
  | _ => false

theorem takesList_iff {op : CompareOp} : op.takesList = true ↔ op ∈ [isIn, isNotIn] := by
  cases op <;> decide

theorem isOrdering_iff {op : CompareOp} : op.isOrdering = true ↔
    op ∈ [greaterThan, greaterThanOrEqual, lessThan, lessThanOrEqual] := by
  cases op <;> decide

theorem isTextMatch_iff {op : CompareOp} : op.isTextMatch = true ↔
    op ∈ [contains, notContains, startsWith, notStartsWith, endsWith, notEndsWith] := by
  cases op <;> decide

theorem isEquality_iff {op : CompareOp} : op.isEquality = true ↔ op ∈ [equals, notEquals] := by
  cases op <;> decide

end CompareOp

inductive LogicalOp where
  | and | or
  deriving DecidableEq

namespace LogicalOp

def all : List LogicalOp := [.and, .or]

theorem mem_all (op : LogicalOp) : op ∈ all := by cases op <;> decide

def symbol : LogicalOp → String
  | .and => "&&"
  | .or => "||"

def name : LogicalOp → String
  | .and => "And"
  | .or => "Or"

/-- How tightly an operator holds its left operand; the right one is held one step tighter, so
that operators of one kind group to the left. -/
def strength : LogicalOp → Nat
  | .or => 1
  | .and => 3

end LogicalOp
end RecordFilter
