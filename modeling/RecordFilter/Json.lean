/-!
JSON values. Numbers keep their text, and objects keep all members in the order of the text, also
when a name occurs twice.
-/
namespace RecordFilter

inductive Json where
  | null
  | boolean (b : Bool)
  | number (text : String)
  | string (s : String)
  | array (items : List Json)
  | object (members : List (String × Json))
  /-- A value that is well written but denotes nothing: text with half of a surrogate pair, an
  object with such a name, or a number beyond all double-precision numbers. -/
  | senseless
  deriving Inhabited

namespace Json

mutual

/-- Whether the value and all values inside it denote something. -/
def isSensible : Json → Bool
  | .senseless => false
  | .array items => allSensible items
  | .object members => membersSensible members
  | .null | .boolean _ | .number _ | .string _ => true

def allSensible : List Json → Bool
  | [] => true
  | item :: rest => item.isSensible && allSensible rest

def membersSensible : List (String × Json) → Bool
  | [] => true
  | (_, value) :: rest => value.isSensible && membersSensible rest

end

mutual

/-- The number of arrays and objects on the longest way in. -/
def depth : Json → Nat
  | .array items => maxDepth items + 1
  | .object members => maxMemberDepth members + 1
  | .null | .boolean _ | .number _ | .string _ | .senseless => 0

def maxDepth : List Json → Nat
  | [] => 0
  | item :: rest => max item.depth (maxDepth rest)

def maxMemberDepth : List (String × Json) → Nat
  | [] => 0
  | (_, value) :: rest => max value.depth (maxMemberDepth rest)

end

/-- The depth up to which a value is taken from a file, unless it is skipped there. -/
def depthLimit : Nat := 127

def text? : Json → Option String
  | .string s => some s
  | _ => none

def boolean? : Json → Option Bool
  | .boolean b => some b
  | _ => none

def texts? : Json → Option (List String)
  | .array items => items.mapM text?
  | _ => none

/-- The value of a name that occurs exactly once. -/
def single? (name : String) (members : List (String × Json)) : Option Json :=
  match members.filter fun member => member.1 == name with
  | [(_, value)] => some value
  | _ => none

/-- The fields of a record that may be left out. A record is an object, in which each label stands
at most once and other names are skipped, or an array of the first fields in their order. -/
def record? (labels : List String) : Json → Option (String → Option Json)
  | .object members =>
    if labels.all fun label => (members.filter fun member => member.1 == label).length ≤ 1 then
      some fun label => single? label members
    else none
  | .array items =>
    if items.length ≤ labels.length then some fun label => (labels.zip items).lookup label else none
  | _ => none

end Json
end RecordFilter
