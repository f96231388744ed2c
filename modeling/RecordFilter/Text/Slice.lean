import RecordFilter.Text.Measure

/-!
Cuts of a text at bytes of its UTF-8 form. A byte inside of a character is no place for a cut.
-/
namespace RecordFilter

/-- The text before a byte and the text from there on, if the byte is not inside of a character and
not behind the end. -/
def cutAt? : Nat → List Char → Option (List Char × List Char)
  | 0, cs => some ([], cs)
  | _ + 1, [] => none
  | n + 1, c :: cs =>
    if c.utf8Size ≤ n + 1 then
      (cutAt? (n + 1 - c.utf8Size) cs).map fun (front, rest) => (c :: front, rest)
    else none

theorem cutAt?_byteSize (front rest : List Char) :
    cutAt? (byteSize front) (front ++ rest) = some (front, rest) := by
  induction front with
  | nil =>
    rw [List.nil_append, byteSize_nil]
    cases rest <;> rfl
  | cons c front ih =>
    obtain ⟨n, hn⟩ : ∃ n, c.utf8Size = n + 1 := ⟨c.utf8Size - 1, by
      have := Char.utf8Size_pos c
      omega⟩
    have hsize : byteSize (c :: front) = n + byteSize front + 1 := by
      rw [byteSize_cons, hn]
      omega
    have hrest : n + byteSize front + 1 - c.utf8Size = byteSize front := by omega
    rw [hsize, List.cons_append, cutAt?, if_pos (by omega), hrest, ih, Option.map_some]

theorem of_cutAt? {n : Nat} {cs front rest : List Char} (h : cutAt? n cs = some (front, rest)) :
    cs = front ++ rest ∧ n = byteSize front := by
  induction n, cs using cutAt?.induct generalizing front with
  | case1 cs =>
    cases cs <;> cases h <;> exact ⟨rfl, rfl⟩
  | case2 => cases h
  | case3 n c cs hle ih =>
    rw [cutAt?, if_pos hle] at h
    obtain ⟨⟨front, rest'⟩, hcut, heq⟩ := Option.map_eq_some_iff.mp h
    cases heq
    obtain ⟨rfl, hsize⟩ := ih hcut
    refine ⟨rfl, ?_⟩
    rw [byteSize_cons]
    omega
  | case4 n c cs hgt =>
    rw [cutAt?, if_neg hgt] at h
    cases h

theorem cutAt?_eq_some_iff {n : Nat} {cs front rest : List Char} :
    cutAt? n cs = some (front, rest) ↔ cs = front ++ rest ∧ n = byteSize front := by
  constructor
  · exact of_cutAt?
  · rintro ⟨rfl, rfl⟩
    exact cutAt?_byteSize front rest

/-- The last place for a cut that is not behind a byte. -/
def lastCut (cs : List Char) : Nat → Nat
  | 0 => 0
  | n + 1 => if (cutAt? (n + 1) cs).isSome then n + 1 else lastCut cs n

/-- The text between two bytes, if both are places for a cut and in this order. -/
def slice? (start stop : Nat) (cs : List Char) : Option (List Char) := do
  let (front, _) ← cutAt? stop cs
  let (_, piece) ← cutAt? start front
  return piece

end RecordFilter
