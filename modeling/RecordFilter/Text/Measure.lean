/-!
Lengths of text in bytes of its UTF-8 form, in which positions in a filter are counted.
-/
namespace RecordFilter

def byteSize (cs : List Char) : Nat := (String.ofList cs).utf8ByteSize

@[simp] theorem byteSize_nil : byteSize [] = 0 := rfl
@[simp] theorem byteSize_cons (c : Char) (cs : List Char) :
    byteSize (c :: cs) = c.utf8Size + byteSize cs := by
  rw [byteSize, String.ofList_cons, String.utf8ByteSize_append, String.utf8ByteSize_singleton,
    byteSize]

@[simp] theorem byteSize_append (cs ds : List Char) :
    byteSize (cs ++ ds) = byteSize cs + byteSize ds := by
  rw [byteSize, String.ofList_append, String.utf8ByteSize_append, byteSize, byteSize]

/-- The number of characters that lie wholly in the first `limit` bytes. -/
def charsWithin (limit : Nat) : List Char → Nat
  | [] => 0
  | c :: cs => if c.utf8Size ≤ limit then charsWithin (limit - c.utf8Size) cs + 1 else 0

@[simp] theorem charsWithin_nil (limit : Nat) : charsWithin limit [] = 0 := rfl

theorem charsWithin_le_length (limit : Nat) (cs : List Char) :
    charsWithin limit cs ≤ cs.length := by
  induction cs generalizing limit with
  | nil => simp
  | cons c cs ih =>
    simp only [charsWithin, List.length_cons]
    split
    · exact Nat.succ_le_succ (ih _)
    · exact Nat.zero_le _

/-- At a boundary between characters, all characters before it are counted and no others. -/
theorem charsWithin_boundary (cs ds : List Char) :
    charsWithin (byteSize cs) (cs ++ ds) = cs.length := by
  induction cs with
  | nil =>
    cases ds with
    | nil => rfl
    | cons d ds =>
      have := Char.utf8Size_pos d
      simp only [byteSize_nil, List.nil_append, charsWithin, List.length_nil]
      rw [if_neg (by omega)]
  | cons c cs ih => simp [charsWithin, ih]

end RecordFilter
