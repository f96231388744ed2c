import RecordFilter.File
import RecordFilter.Session

/-!
The command line: a console session on standard input.
-/
namespace RecordFilter

/-- How the program is called. -/
structure Invocation where
  settings : Option String := none
  shape : Option String := none
  withJson : Bool := false

/-- The options in the order given, if all of them are known. -/
def Invocation.ofArguments (call : Invocation) : List String → Option Invocation
  | [] => some call
  | "--json" :: rest => ofArguments { call with withJson := true } rest
  | "--settings" :: file :: rest => ofArguments { call with settings := some file } rest
  | "--shape" :: file :: rest => ofArguments { call with shape := some file } rest
  | _ => none

def usage : String := "usage: [--settings FILE] [--shape FILE] [--json]"

def examine (path : String) : IO File := do
  try
    let bytes ← IO.FS.readBinFile path
    return match String.fromUTF8? bytes with
      | some text => .content text
      | none => .unreadable
  catch
    | .noFileOrDirectory .. => return .missing
    | _ => return .unreadable

/-- Loads a file if one is named. -/
def loadOr {α : Type} (usual : α) (load : File → Except LoadError α) :
    Option String → IO (Except LoadError α)
  | none => return .ok usual
  | some path => return load (← examine path)

def prepare (call : Invocation) : IO (Except LoadError Console) := do
  match ← loadOr {} File.configuration call.settings with
  | .error e => return .error e
  | .ok configuration =>
    let shape ← loadOr recipe File.shape call.shape
    return shape.map fun shape => { configuration, shape, withJson := call.withJson }

def say (lines : List String) : IO Unit := do
  lines.forM IO.println
  (← IO.getStdout).flush

partial def converse (console : Console) (input : IO.FS.Stream) : IO Unit := do
  let line ← input.getLine
  if line.isEmpty then return
  match Command.ofLine line with
  | .quit => return
  | command =>
    say (console.answer command)
    converse console input

end RecordFilter

open RecordFilter in
def main (arguments : List String) : IO UInt32 := do
  match Invocation.ofArguments {} arguments with
  | none =>
    IO.eprintln usage
    return 2
  | some call =>
    match ← prepare call with
    | .error e =>
      IO.eprintln e.message
      return 1
    | .ok console =>
      say Console.greeting
      converse console (← IO.getStdin)
      return 0
