import RecordFilter.Json.Read
import RecordFilter.Settings.Json
import RecordFilter.Shape.Json
import RecordFilter.Vocabulary.Check

/-!
Settings and shapes from files. What a look at the file has shown is given; the file system itself
is left to the caller.
-/
namespace RecordFilter

/-- What a look at a file shows. -/
inductive File where
  | missing
  /-- It is a directory, say, or not text. -/
  | unreadable
  | content (text : String)

inductive LoadError where
  | missing
  | unreadable
  /-- The text is no JSON or does not describe what is asked for. -/
  | malformed
  | spelling (error : SpellingError)

def LoadError.message : LoadError → String
  | .missing => "the file does not exist"
  | .unreadable => "the file cannot be read as text"
  | .malformed => "the file does not hold a description of the kind asked for"
  | .spelling error => error.message

namespace File

def load {α : Type} (read : Json → Option α) : File → Except LoadError α
  | .missing => .error .missing
  | .unreadable => .error .unreadable
  | .content text =>
    match (Json.ofText? text).bind read with
    | some value => .ok value
    | none => .error .malformed

def settings : File → Except LoadError Settings := load Settings.ofJson?

def shape : File → Except LoadError OrderedShape := load Shape.ofJson?

/-- Settings that have been checked as well. -/
def configuration (file : File) : Except LoadError Configuration := do
  (Configuration.ofSettings? (← file.settings)).mapError .spelling

end File
end RecordFilter
