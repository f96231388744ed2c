import RecordFilter.Json
import RecordFilter.Text.Layout

/-!
JSON text, on one line or as a listing. Only quotes, backslashes and control characters are
escaped.
-/
namespace RecordFilter
namespace Json

/-- The escape of a control character that has no letter of its own. -/
def unitEscape (c : Char) : List Char :=
  let digits := Nat.toDigits 16 c.toNat
  ['\\', 'u'] ++ List.replicate (4 - digits.length) '0' ++ digits

def escapedChar (c : Char) : List Char :=
  if c = '"' || c = '\\' then ['\\', c]
  else if c = '\x08' then ['\\', 'b']
  else if c = '\t' then ['\\', 't']
  else if c = '\n' then ['\\', 'n']
  else if c = '\x0c' then ['\\', 'f']
  else if c = '\r' then ['\\', 'r']
  else if c.toNat < 0x20 then unitEscape c
  else [c]

def quoted (s : String) : String :=
  String.ofList <| '"' :: s.toList.flatMap escapedChar ++ ['"']

mutual

/-- The text without any blanks between tokens. -/
def compact : Json → String
  | .null | .senseless => "null"
  | .boolean b => if b then "true" else "false"
  | .number text => text
  | .string s => quoted s
  | .array items => "[" ++ ",".intercalate (compactItems items) ++ "]"
  | .object members => "\x7b" ++ ",".intercalate (compactMembers members) ++ "\x7d"

def compactItems : List Json → List String
  | [] => []
  | item :: rest => item.compact :: compactItems rest

def compactMembers : List (String × Json) → List String
  | [] => []
  | (name, value) :: rest => (quoted name ++ ":" ++ value.compact) :: compactMembers rest

end

mutual

def layout : Json → Layout
  | .array items => .block "[" (itemEntries items) "]"
  | .object members => .block "\x7b" (memberEntries members) "\x7d"
  | .null => .leaf (compact .null)
  | .senseless => .leaf (compact .senseless)
  | .boolean b => .leaf (compact (.boolean b))
  | .number text => .leaf text
  | .string s => .leaf (quoted s)

def itemEntries : List Json → List (String × Layout)
  | [] => []
  | item :: rest => ("", item.layout) :: itemEntries rest

def memberEntries : List (String × Json) → List (String × Layout)
  | [] => []
  | (name, value) :: rest => (quoted name ++ ": ", value.layout) :: memberEntries rest

end

/-- The text with every item and member on a line of its own. -/
def indented (j : Json) : String := j.layout.write ⟨2, false⟩ 0

end Json
end RecordFilter
