import RecordFilter.Decimal
import RecordFilter.Moment
import RecordFilter.Operator
import RecordFilter.Settings
import RecordFilter.Shape.Resolve

/-!
Predicates over records. Inside a quantifier, paths start at the element of its collection, and
the empty path is the element itself. A backend that evaluates a comparison that ignores case
brings both sides to lower case.
-/
namespace RecordFilter

/-- A literal that has been given the kind of the field it is compared with. -/
inductive Value where
  | text (s : String)
  | number (d : Decimal)
  | boolean (b : Bool)
  | temporal (t : Temporal)
  | null
  | list (values : List Value)

structure FieldPath where
  segments : List String
  deriving DecidableEq

namespace FieldPath

/-- The element of the enclosing collection. -/
def element : FieldPath := ⟨[]⟩

def isElement (p : FieldPath) : Bool := p.segments.isEmpty

/-- The path of a dotted text; the empty text is the element. -/
def ofText (text : String) : FieldPath := if text.isEmpty then element else ⟨pathSegments text⟩

def text (p : FieldPath) : String := if p.isElement then "@" else ".".intercalate p.segments

end FieldPath

inductive Predicate where
  | compare (field : FieldPath) (kind : ValueKind) (op : CompareOp) (value : Value)
      (ignoreCase : Bool)
  | and (left right : Predicate)
  | or (left right : Predicate)
  | quantified (quantifier : Quantifier) (collection : FieldPath) (inner : Predicate)

namespace Predicate

def compareCount : Predicate → Nat
  | .compare .. => 1
  | .and l r | .or l r => l.compareCount + r.compareCount
  | .quantified _ _ p => p.compareCount

end Predicate

/-! Sameness. Decimals are compared as numbers and moments as instants. -/

mutual

def Value.same : Value → Value → Bool
  | .text s, .text t => s == t
  | .number a, .number b => a.same b
  | .boolean a, .boolean b => a == b
  | .temporal a, .temporal b => a.same b
  | .null, .null => true
  | .list vs, .list ws => sameValues vs ws
  | _, _ => false

def sameValues : List Value → List Value → Bool
  | [], [] => true
  | v :: vs, w :: ws => v.same w && sameValues vs ws
  | _, _ => false

end

def Predicate.same : Predicate → Predicate → Bool
  | .compare f k o v c, .compare f' k' o' v' c' =>
    f == f' && k == k' && o == o' && v.same v' && c == c'
  | .and l r, .and l' r' | .or l r, .or l' r' => l.same l' && r.same r'
  | .quantified q c p, .quantified q' c' p' => q == q' && c == c' && p.same p'
  | _, _ => false

end RecordFilter
