import RecordFilter.Shape

/-!
Following a field path through a shape. Collections are looked through: the path goes on in
their elements, and each step remembers how many collections lie around its value.
-/
namespace RecordFilter

/-- The segments of a dotted path. -/
def pathSegments (path : String) : List String :=
  (path.toList.splitOn '.').map String.ofList

/-- One segment of a path, by the name that the shape declares. -/
structure Step where
  name : String
  /-- The number of collections around the value of the field. -/
  depth : Nat
  deriving DecidableEq

/-- A path down to a single value. -/
structure ResolvedField where
  steps : List Step
  kind : ValueKind
  /-- The variants of an enumeration. -/
  variants : List String
  deriving DecidableEq

namespace ResolvedField

def names (f : ResolvedField) : List String := f.steps.map Step.name

/-- The path in the names of the shape. -/
def path (f : ResolvedField) : String := ".".intercalate f.names

def crossesCollection (f : ResolvedField) : Bool := f.steps.any fun step => 0 < step.depth

/-- The positions of the steps that are collections. -/
def boundaries (f : ResolvedField) : List Nat :=
  (List.range f.steps.length).filter fun i => f.steps[i]?.any fun step => 0 < step.depth

end ResolvedField

/-- Why a path does not lead to a single value. -/
inductive PathFault where
  | unknown
  /-- The path ends at a field of the given description. -/
  | notScalar (described : String)
  deriving DecidableEq

/-- The declared name and the kind of a field. -/
def Shape.lookup (caseSensitive : Bool) (shape : Shape) (name : String) :
    Option (String × FieldKind) :=
  if caseSensitive then shape.get? name else shape.getIgnoringCase? name

/-- The value at the last segment of a path. -/
def resolveLast (declared : String) (kind : FieldKind) : Except PathFault ResolvedField :=
  match kind.unwrap.2.scalar? with
  | some (valueKind, variants) => .ok ⟨[⟨declared, kind.unwrap.1⟩], valueKind, variants⟩
  | none => .error (.notScalar kind.describe)

/-- Follows segments, each in the object that the one before leads to. -/
def Shape.resolveSegments (caseSensitive : Bool) (shape : Shape) :
    List String → Except PathFault ResolvedField
  | [] => .error .unknown
  | name :: rest =>
    match shape.lookup caseSensitive name with
    | none => .error .unknown
    | some (declared, kind) =>
      if rest.isEmpty then resolveLast declared kind
      else match kind.unwrap with
        | (depth, .object fields) =>
          (fields.resolveSegments caseSensitive rest).map fun f =>
            { f with steps := ⟨declared, depth⟩ :: f.steps }
        | _ => .error .unknown

def Shape.resolve (caseSensitive : Bool) (shape : Shape) (path : String) :
    Except PathFault ResolvedField :=
  shape.resolveSegments caseSensitive (pathSegments path)

end RecordFilter
