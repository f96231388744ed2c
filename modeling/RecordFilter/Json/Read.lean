import RecordFilter.Json.Token

/-!
Reading a JSON value from its tokens, one token at a time. The arrays and objects around the
current place are kept as a list, innermost first, so that any depth is read.
-/
namespace RecordFilter
namespace Json

/-- An array or object that is not closed yet, the last of its parts first. An object waits for the
value of a name. -/
inductive Frame where
  | array (items : List Json)
  | object (members : List (Option String × Json)) (name : Option String)

/-- What has been read and what has to come next. -/
inductive Progress where
  | atValue (outer : List Frame)
  | atItem (outer : List Frame)
  | atMember (outer : List Frame)
  | atName (members : List (Option String × Json)) (outer : List Frame)
  | atColon (members : List (Option String × Json)) (name : Option String) (outer : List Frame)
  | complete (value : Json) (outer : List Frame)

def ofContent : Option String → Json
  | some s => .string s
  | none => .senseless

/-- The object of the given members, if all names are text. -/
def ofMembers (members : List (Option String × Json)) : Json :=
  match members.mapM fun member => member.1.map fun name => (name, member.2) with
  | some named => .object named
  | none => .senseless

/-- The token with which a value starts. -/
def Progress.start (outer : List Frame) : Token → Option Progress
  | .openArray => some (.atItem outer)
  | .openObject => some (.atMember outer)
  | .string content => some (.complete (ofContent content) outer)
  | .scalar value => some (.complete value outer)
  | .closeArray | .closeObject | .comma | .colon => none

def Progress.next : Progress → Token → Option Progress
  | .atValue outer, token => start outer token
  | .atItem outer, .closeArray => some (.complete (.array []) outer)
  | .atItem outer, token => start (.array [] :: outer) token
  | .atMember outer, .closeObject => some (.complete (.object []) outer)
  | .atMember outer, .string name => some (.atColon [] name outer)
  | .atName members outer, .string name => some (.atColon members name outer)
  | .atColon members name outer, .colon => some (.atValue (.object members name :: outer))
  | .complete v (.array items :: outer), .comma => some (.atValue (.array (v :: items) :: outer))
  | .complete v (.array items :: outer), .closeArray =>
    some (.complete (.array (v :: items).reverse) outer)
  | .complete v (.object members name :: outer), .comma =>
    some (.atName ((name, v) :: members) outer)
  | .complete v (.object members name :: outer), .closeObject =>
    some (.complete (ofMembers ((name, v) :: members).reverse) outer)
  | _, _ => none

/-- The value that a text holds, with nothing else around it but white space. -/
def ofText? (text : String) : Option Json := do
  match ← (← tokensOf text.toList).foldlM Progress.next (.atValue []) with
  | .complete value [] => some value
  | _ => none

end Json
end RecordFilter
