import RecordFilter.Predicate
import RecordFilter.Text.Escape

/-!
Predicates on one line, with the usual operators. Every pair is put in parentheses.
-/
namespace RecordFilter

mutual

def Value.describe : Value → String
  | .text s => quotedText s
  | .number d => d.text
  | .boolean b => if b then "true" else "false"
  | .temporal t => t.text
  | .null => "null"
  | .list values => "[" ++ ", ".intercalate (describeValues values) ++ "]"

def describeValues : List Value → List String
  | [] => []
  | value :: rest => value.describe :: describeValues rest

end

def Quantifier.name : Quantifier → String
  | .any => "any"
  | .all => "all"

def Predicate.text : Predicate → String
  | .compare field _ op value ignoreCase =>
    field.text ++ " " ++ Spelling.standard.comparisonText op ignoreCase ++ " " ++ value.describe
  | .and l r => "(" ++ l.text ++ " && " ++ r.text ++ ")"
  | .or l r => "(" ++ l.text ++ " || " ++ r.text ++ ")"
  | .quantified q collection inner =>
    collection.text ++ "." ++ q.name ++ "(" ++ inner.text ++ ")"

end RecordFilter
