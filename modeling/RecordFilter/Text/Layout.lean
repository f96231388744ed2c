/-!
Nested listings: a leaf is one piece of text, and a block puts each of its entries on a line of
its own, one step further in than the line that opens it. An empty block stays on one line.
-/
namespace RecordFilter

inductive Layout where
  | leaf (text : String)
  /-- Each entry has a label that is written in front of it. -/
  | block (opening : String) (entries : List (String × Layout)) (closing : String)

namespace Layout

structure Style where
  /-- The number of spaces of one step. -/
  step : Nat
  /-- Whether the last entry of a block is followed by a comma like the others. -/
  commaAtEnd : Bool

def Style.newline (style : Style) (level : Nat) : String :=
  "\n" ++ "".pushn ' ' (style.step * level)

mutual

/-- The listing of a layout that begins on a line `level` steps in. -/
def write (style : Style) (level : Nat) : Layout → String
  | .leaf text => text
  | .block opening [] closing => opening ++ closing
  | .block opening (entry :: entries) closing =>
    opening ++ writeEntries style (level + 1) (entry :: entries) ++ style.newline level ++ closing

def writeEntries (style : Style) (level : Nat) : List (String × Layout) → String
  | [] => ""
  | (label, entry) :: rest =>
    style.newline level ++ label ++ entry.write style level
      ++ (if rest.isEmpty && !style.commaAtEnd then "" else ",")
      ++ writeEntries style level rest

end

@[simp] theorem write_leaf (style : Style) (level : Nat) (text : String) :
    (leaf text).write style level = text := by simp [write]

@[simp] theorem write_empty_block (style : Style) (level : Nat) (opening closing : String) :
    (block opening [] closing).write style level = opening ++ closing := by simp [write]

end Layout
end RecordFilter
