import RecordFilter.Condition.Read
import RecordFilter.Predicate.Compile
import RecordFilter.Token.Scan

/-!
Failures of a filter text at any stage, and how they are shown: the text, a line that marks the
place, and the message.
-/
namespace RecordFilter

inductive Failure where
  | scan (error : ScanError)
  | grammar (error : GrammarError)
  | compile (error : CompileError)
  deriving DecidableEq

namespace Failure

def message : Failure → String
  | .scan e => "lex error: " ++ e.message
  | .grammar e => "parse error: " ++ e.message
  | .compile e => "compile error: " ++ e.message

def span : Failure → Span
  | .scan e => ⟨e.position, e.position + 1⟩
  | .grammar e => e.span
  | .compile e => e.span

/-- The number of characters of a text before the place of the failure. -/
def indent (f : Failure) (source : String) : Nat := charsWithin f.span.start source.toList

/-- The number of characters that the failure is about, and one if there are none. -/
def width (f : Failure) (source : String) : Nat :=
  max 1 (charsWithin f.span.stop source.toList - f.indent source)

/-- Spaces up to the place of the failure, then a caret for each character of it. -/
def marker (f : Failure) (source : String) : List Char :=
  List.replicate (f.indent source) ' ' ++ List.replicate (f.width source) '^'

def render (f : Failure) (source : String) : String :=
  source ++ "\n" ++ String.ofList (f.marker source) ++ "\n" ++ f.message

end Failure
end RecordFilter
