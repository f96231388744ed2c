import RecordFilter.Text.Character

/-!
Shapes: the fields of a kind of record. Fields are kept in the order of their names, and each
name is declared once.
-/
namespace RecordFilter

/-- Kinds of values that can be compared. -/
inductive ValueKind where
  | string | number | boolean | date | enumeration
  deriving DecidableEq

def ValueKind.name : ValueKind → String
  | .string => "string"
  | .number => "number"
  | .boolean => "boolean"
  | .date => "date"
  | .enumeration => "enum"

mutual

/-- What a field holds. -/
inductive FieldKind where
  | string | number | boolean | date
  | enumeration (variants : List String)
  | object (fields : Shape)
  | collection (element : FieldKind)

inductive Shape where
  | empty
  | field (name : String) (kind : FieldKind) (rest : Shape)

end

namespace FieldKind

/-- The kind of a single value, together with the variants of an enumeration. -/
def scalar? : FieldKind → Option (ValueKind × List String)
  | .string => some (.string, [])
  | .number => some (.number, [])
  | .boolean => some (.boolean, [])
  | .date => some (.date, [])
  | .enumeration variants => some (.enumeration, variants)
  | .object _ | .collection _ => none

def valueKind? (kind : FieldKind) : Option ValueKind := kind.scalar?.map Prod.fst

/-- The number of collections around a kind, and the kind inside them. -/
def unwrap : FieldKind → Nat × FieldKind
  | .collection element => (element.unwrap.1 + 1, element.unwrap.2)
  | kind => (0, kind)

def describe : FieldKind → String
  | .string => ValueKind.string.name
  | .number => ValueKind.number.name
  | .boolean => ValueKind.boolean.name
  | .date => ValueKind.date.name
  | .enumeration _ => ValueKind.enumeration.name
  | .object _ => "object"
  | .collection element => "collection of " ++ element.describe

end FieldKind

namespace Shape

def toList : Shape → List (String × FieldKind)
  | .empty => []
  | .field name kind rest => (name, kind) :: rest.toList

@[simp] theorem toList_empty : Shape.empty.toList = [] := rfl
@[simp] theorem toList_field (name : String) (kind : FieldKind) (rest : Shape) :
    (Shape.field name kind rest).toList = (name, kind) :: rest.toList := rfl

/-- Declares a field at its place in the order of names. A field of that name is replaced. -/
def insert (name : String) (kind : FieldKind) : Shape → Shape
  | .empty => .field name kind .empty
  | .field other otherKind rest =>
    if name < other then .field name kind (.field other otherKind rest)
    else if name = other then .field name kind rest
    else .field other otherKind (rest.insert name kind)

/-- Declares fields one after the other. -/
def ofList (fields : List (String × FieldKind)) : Shape :=
  fields.foldl (fun shape (name, kind) => shape.insert name kind) .empty

def size (shape : Shape) : Nat := shape.toList.length

def find? (p : String → Bool) (shape : Shape) : Option (String × FieldKind) :=
  shape.toList.find? fun entry => p entry.1

/-- The field of exactly this name. -/
def get? (shape : Shape) (name : String) : Option (String × FieldKind) :=
  shape.find? fun declared => declared == name

/-- The field of exactly this name or else the first whose name differs in ASCII case only. -/
def getIgnoringCase? (shape : Shape) (name : String) : Option (String × FieldKind) :=
  (shape.get? name).or (shape.find? fun declared => sameIgnoringCase declared name)

end Shape
end RecordFilter
