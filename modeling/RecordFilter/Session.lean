import RecordFilter.Predicate.Listing
import RecordFilter.Predicate.Text
import RecordFilter.Query
import RecordFilter.Shape.Ordered

/-!
A console session: each line of input is a command or a filter, and each is answered by itself.
Filters are about a sample record unless another shape is given.
-/
namespace RecordFilter

/-- The shape of a recipe. -/
def recipe : OrderedShape :=
  let preparation : OrderedShape := .ofList [("Text", .string)] (by simp [FieldKind.Ordered])
  let ingredient : OrderedShape := .ofList [
    ("Name", .string), ("Quantity", .number),
    ("Preparations", .collection (.object preparation))]
    (by simp [FieldKind.Ordered, preparation.ordered])
  .ofList [
    ("Title", .string), ("Rating", .number), ("DateOfOrigin", .date),
    ("HaveMadeItMyself", .boolean),
    ("Visibility", .enumeration ["Public", "Private", "FriendsOnly"]),
    ("Tags", .collection .string),
    ("Ingredients", .collection (.object ingredient))]
    (by simp [FieldKind.Ordered, ingredient.ordered])

/-- What a line asks for. -/
inductive Command where
  | nothing
  | quit
  | operators
  | tokens (filter : String)
  | compile (filter : String)

/-- What follows a command word, if the text starts with that word. -/
def argument? (word text : List Char) : Option (List Char) :=
  if word.isPrefixOf text && (text.drop word.length).head?.all isBlank then
    some (trimBlanks (text.drop word.length))
  else none

def Command.ofLine (line : String) : Command :=
  let text := trimBlanks line.toList
  let word := String.ofList text
  if word = "" then .nothing
  else if word = ":quit" ∨ word = ":q" then .quit
  else if word = ":ops" then .operators
  else match argument? ":tokens".toList text with
    | some filter => .tokens (String.ofList filter)
    | none => .compile word

/-- Puts a text at the left of a column. -/
def atLeft (width : Nat) (s : String) : String := s ++ "".pushn ' ' (width - s.length)

/-- Puts a text at the right of a column. -/
def atRight (width : Nat) (s : String) : String := "".pushn ' ' (width - s.length) ++ s

structure Console where
  configuration : Configuration := {}
  shape : OrderedShape := recipe
  /-- Whether predicates are shown as JSON, too. -/
  withJson : Bool := false

namespace Console

def greeting : List String := [
  "--- Filter 查询编译器 ---",
  "输入过滤表达式, `:tokens <filter>` 查看分词, `:ops` 查看运算符, `:quit` 退出",
  ""]

def complaint (source : String) (f : Failure) : List String := ["✗ " ++ f.render source]

/-- A table of all operators and the suffix. -/
def operatorLines (v : Vocabulary) : List String :=
  let line (name word : String) := "  " ++ atLeft 20 name ++ " " ++ word
  CompareOp.all.map (fun op => line op.name (v.comparisonWord op))
    ++ LogicalOp.all.map (fun op => line op.name (v.logicalWord op))
    ++ [line "CaseInsensitive" v.suffix]

def tokenLines (v : Vocabulary) (filter : String) : List String :=
  match tokens v filter with
  | .ok ts => ts.map fun t => "  " ++ atRight 8 t.span.describe ++ "  " ++ t.kind.describe
  | .error e => complaint filter (.scan e)

/-- The condition is shown even if it does not compile. -/
def compileLines (c : Console) (filter : String) : List String :=
  match Condition.ofText c.configuration.vocabulary filter with
  | .error f => complaint filter f
  | .ok condition =>
    ("[AST]: " ++ condition.text) ::
      match c.configuration.settings.compile c.shape condition with
      | .error f => complaint filter f
      | .ok p =>
        ["[谓词]: " ++ p.text, p.listing] ++ if c.withJson then [p.toJson.indented] else []

/-- The lines of the answer to a command. Nothing is said at the end. -/
def answer (c : Console) : Command → List String
  | .nothing | .quit => []
  | .operators => operatorLines c.configuration.vocabulary
  | .tokens filter => tokenLines c.configuration.vocabulary filter
  | .compile filter => c.compileLines filter

/-- The answers to lines up to the one that ends the session. -/
def answers (c : Console) : List String → List String
  | [] => []
  | line :: rest =>
    match Command.ofLine line with
    | .quit => []
    | command => c.answer command ++ c.answers rest

/-- All that a session on the given input writes. -/
def transcript (c : Console) (input : String) : String :=
  String.join <| (greeting ++ c.answers (input.splitOn "\n")).map (· ++ "\n")

end Console
end RecordFilter
