import RecordFilter.Json
import RecordFilter.Settings

/-!
Settings as JSON. What is left out keeps its usual value.
-/
namespace RecordFilter

def CompareOp.label : CompareOp → String
  | .equals => "equals_operator"
  | .notEquals => "not_equals_operator"
  | .greaterThan => "greater_than_operator"
  | .greaterThanOrEqual => "greater_than_or_equal_operator"
  | .lessThan => "less_than_operator"
  | .lessThanOrEqual => "less_than_or_equal_operator"
  | .contains => "contains_operator"
  | .notContains => "not_contains_operator"
  | .startsWith => "starts_with_operator"
  | .notStartsWith => "not_starts_with_operator"
  | .endsWith => "ends_with_operator"
  | .notEndsWith => "not_ends_with_operator"
  | .isIn => "in_operator"
  | .isNotIn => "not_in_operator"

def LogicalOp.label : LogicalOp → String
  | .and => "and_operator"
  | .or => "or_operator"

def Quantifier.label : Quantifier → String
  | .any => "any"
  | .all => "all"

namespace Settings

def suffixLabel : String := "case_insensitive_appendix"
def comparisonsLabel : String := "comparison_aliases"
def logicalsLabel : String := "logical_aliases"
def caseLabel : String := "field_case_sensitive"
def quantifierLabel : String := "default_quantifier"

/-- A field that may be left out. -/
def orUsual {α : Type} (usual : α) (read : Json → Option α) : Option Json → Option α
  | none => some usual
  | some value => read value

/-- A record all of whose fields are words. -/
def wordsOf? (labels : List String) (j : Json) : Option (String → Option String) := do
  let field ← j.record? labels
  if labels.all fun label => (field label).all fun value => value.text?.isSome then
    return fun label => (field label).bind Json.text?
  else none

def comparisonWordsOf? (j : Json) : Option Spelling := do
  let word ← wordsOf? (CompareOp.all.map CompareOp.label ++ [suffixLabel]) j
  return { comparison := fun op => (word op.label).getD op.symbol
           suffix := (word suffixLabel).getD Spelling.standard.suffix }

def logicalWordsOf? (j : Json) : Option (LogicalOp → String) := do
  let word ← wordsOf? (LogicalOp.all.map LogicalOp.label) j
  return fun op => (word op.label).getD op.symbol

/-- A quantifier is named by a text, or by the one name of an object with nothing in it. -/
def quantifierOf? (j : Json) : Option Quantifier := do
  let name ← match j with
    | .string name => some name
    | .object [(name, .null)] => some name
    | _ => none
  if name = Quantifier.any.label then some .any
  else if name = Quantifier.all.label then some .all
  else none

def ofJson? (j : Json) : Option Settings := do
  let field ← j.record? [comparisonsLabel, logicalsLabel, caseLabel, quantifierLabel]
  let spelling ← orUsual .standard comparisonWordsOf? (field comparisonsLabel)
  let logical ← orUsual LogicalOp.symbol logicalWordsOf? (field logicalsLabel)
  let caseSensitiveFields ← orUsual true Json.boolean? (field caseLabel)
  let quantifier ← orUsual .any quantifierOf? (field quantifierLabel)
  return { spelling := { spelling with logical }, caseSensitiveFields, quantifier }

def toJson (s : Settings) : Json := .object [
  (comparisonsLabel, .object <|
    CompareOp.all.map (fun op => (op.label, .string (s.spelling.comparison op)))
      ++ [(suffixLabel, .string s.spelling.suffix)]),
  (logicalsLabel, .object <|
    LogicalOp.all.map fun op => (op.label, .string (s.spelling.logical op))),
  (caseLabel, .boolean s.caseSensitiveFields),
  (quantifierLabel, .string s.quantifier.label)]

end Settings
end RecordFilter
