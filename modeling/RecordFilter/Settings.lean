import RecordFilter.Operator

/-!
What a user can set: the texts that spell the operators, whether the case of field names
counts, and how a comparison reads a collection.
-/
namespace RecordFilter

/-- The texts of all operators. The suffix makes a comparison ignore case. -/
structure Spelling where
  comparison : CompareOp → String := CompareOp.symbol
  logical : LogicalOp → String := LogicalOp.symbol
  suffix : String := "*"

def Spelling.standard : Spelling := {}

/-- The text of a comparison operator together with its suffix, if it has one. -/
def Spelling.comparisonText (s : Spelling) (op : CompareOp) (ignoreCase : Bool) : String :=
  s.comparison op ++ if ignoreCase then s.suffix else ""

/-- How many elements of a collection have to satisfy a comparison. -/
inductive Quantifier where
  | any | all
  deriving DecidableEq

structure Settings where
  spelling : Spelling := {}
  caseSensitiveFields : Bool := true
  quantifier : Quantifier := .any

end RecordFilter
