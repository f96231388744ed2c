import RecordFilter.Json.Write
import RecordFilter.Predicate
import RecordFilter.Text.Escape

/-!
Predicates in full, for readers that are not people: as a nested listing and as JSON. Both name
every part, and operators go by short codes that no spelling changes.
-/
namespace RecordFilter

def CompareOp.code : CompareOp → String
  | .equals => "Eq"
  | .notEquals => "NotEq"
  | .greaterThan => "Gt"
  | .greaterThanOrEqual => "Gte"
  | .lessThan => "Lt"
  | .lessThanOrEqual => "Lte"
  | .contains => "Contains"
  | .notContains => "NotContains"
  | .startsWith => "StartsWith"
  | .notStartsWith => "NotStartsWith"
  | .endsWith => "EndsWith"
  | .notEndsWith => "NotEndsWith"
  | .isIn => "In"
  | .isNotIn => "NotIn"

/-- The name of a kind in a listing. -/
def ValueKind.title : ValueKind → String
  | .string => "String"
  | .number => "Number"
  | .boolean => "Boolean"
  | .date => "Date"
  | .enumeration => "Enum"

def Quantifier.title : Quantifier → String
  | .any => "Any"
  | .all => "All"

/-! The listing. -/

namespace Layout

def ofBool (b : Bool) : Layout := .leaf (if b then "true" else "false")

def sequence (items : List Layout) : Layout := .block "[" (items.map fun item => ("", item)) "]"

/-- A name with parts that are told apart by their place. -/
def application (name : String) (parts : List Layout) : Layout :=
  .block (name ++ "(") (parts.map fun part => ("", part)) ")"

/-- A name with parts that have names. -/
def record (name : String) (parts : List (String × Layout)) : Layout :=
  .block (name ++ " \x7b") (parts.map fun (label, part) => (label ++ ": ", part)) "\x7d"

end Layout

mutual

def Value.layout : Value → Layout
  | .text s => .application "String" [.leaf (quotedText s)]
  | .number d => .application "Number" [.leaf d.text]
  | .boolean b => .application "Boolean" [.ofBool b]
  | .temporal (.date d) => .application "Date" [.leaf d.text]
  | .temporal (.moment m) => .application "DateTime" [.leaf m.text]
  | .null => .leaf "Null"
  | .list values => .application "List" [.sequence (valueLayouts values)]

def valueLayouts : List Value → List Layout
  | [] => []
  | value :: rest => value.layout :: valueLayouts rest

end

def FieldPath.layout (path : FieldPath) : Layout :=
  .application "FieldPath" [.sequence (path.segments.map fun segment => .leaf (quotedText segment))]

def Predicate.layout : Predicate → Layout
  | .compare field kind op value ignoreCase => .record "Compare" [
    ("field", field.layout), ("kind", .leaf kind.title), ("op", .leaf op.code),
    ("value", value.layout), ("case_insensitive", .ofBool ignoreCase)]
  | .and l r => .application "And" [l.layout, r.layout]
  | .or l r => .application "Or" [l.layout, r.layout]
  | .quantified q collection inner => .record q.title [
    ("collection", collection.layout), ("predicate", inner.layout)]

def Predicate.listing (p : Predicate) : String := p.layout.write ⟨4, true⟩ 0

/-! JSON. Each value and each predicate is an object with its case as the only name. -/

mutual

def Value.toJson : Value → Json
  | .text s => .object [("String", .string s)]
  | .number d => .object [("Number", .string d.text)]
  | .boolean b => .object [("Boolean", .boolean b)]
  | .temporal (.date d) => .object [("Date", .string d.text)]
  | .temporal (.moment m) => .object [("DateTime", .string m.zuluText)]
  | .null => .string "Null"
  | .list values => .object [("List", .array (valuesToJson values))]

def valuesToJson : List Value → List Json
  | [] => []
  | value :: rest => value.toJson :: valuesToJson rest

end

def FieldPath.toJson (path : FieldPath) : Json := .array (path.segments.map .string)

def Predicate.toJson : Predicate → Json
  | .compare field kind op value ignoreCase => .object [("Compare", .object [
    ("field", field.toJson), ("kind", .string kind.name), ("op", .string op.code),
    ("value", value.toJson), ("case_insensitive", .boolean ignoreCase)])]
  | .and l r => .object [("And", .array [l.toJson, r.toJson])]
  | .or l r => .object [("Or", .array [l.toJson, r.toJson])]
  | .quantified q collection inner => .object [(q.title, .object [
    ("collection", collection.toJson), ("predicate", inner.toJson)])]

end RecordFilter
