import RecordFilter.Text.Measure

/-!
The lines of a text, and where a byte of the text stands among them.
-/
namespace RecordFilter

/-- The lines of a text, without the breaks between them. -/
def linesOf (text : List Char) : List (List Char) := text.splitOn '\n'

theorem linesOf_single {text : List Char} (h : '\n' ∉ text) : linesOf text = [text] :=
  List.splitOn_eq_singleton h

theorem linesOf_break (text more : List Char) :
    linesOf (text ++ '\n' :: more) = linesOf text ++ linesOf more :=
  List.splitOn_append_cons_self text more

theorem linesOf_newline (text : List Char) : linesOf ('\n' :: text) = [] :: linesOf text :=
  linesOf_break [] text

theorem linesOf_cons {c : Char} (hc : c ≠ '\n') {text line : List Char} {lines : List (List Char)}
    (h : linesOf text = line :: lines) : linesOf (c :: text) = (c :: line) :: lines := by
  rw [linesOf] at h ⊢
  rw [List.splitOn_cons_eq_if_modifyHead, if_neg (by simpa using hc), h, List.modifyHead_cons]

theorem exists_linesOf (text : List Char) : ∃ line lines, linesOf text = line :: lines :=
  List.exists_cons_of_ne_nil (List.splitOn_ne_nil '\n' text)

/-- A line that stands below some lines stands above them too only if they are all the same. -/
theorem exists_append_cons_eq_iff {α : Type} {x y : α} {xs zs : List α} :
    (∃ rest, xs ++ x :: zs = y :: (xs ++ rest)) ↔ x = y ∧ ∀ z ∈ xs, z = x := by
  constructor
  · rintro ⟨rest, h⟩
    induction xs with
    | nil => exact ⟨(List.cons.inj h).1, nofun⟩
    | cons z xs ih =>
      obtain ⟨rfl, htail⟩ := List.cons.inj h
      obtain ⟨rfl, hall⟩ := ih htail
      exact ⟨rfl, List.forall_mem_cons.mpr ⟨rfl, hall⟩⟩
  · rintro ⟨rfl, hall⟩
    refine ⟨zs, ?_⟩
    rw [List.eq_replicate_of_mem hall, List.append_cons, ← List.replicate_succ',
      List.replicate_succ, List.cons_append]

/-- A place in a text: the lines above it, what comes in front of it in its own line and what comes
after that, and the lines below. -/
structure Spot where
  above : List (List Char)
  front : List Char
  back : List Char
  below : List (List Char)

namespace Spot

/-- What comes in front of a place in the whole text. -/
def before (s : Spot) : List Char := s.above.flatMap (· ++ ['\n']) ++ s.front

/-- The place of a byte. A line break belongs to the line that it ends. -/
structure At (s : Spot) (start : Nat) (text : List Char) : Prop where
  lines_eq : linesOf text = s.above ++ (s.front ++ s.back) :: s.below
  start_eq : start = byteSize s.before

theorem intercalate_above (above : List (List Char)) (line : List Char) (below : List (List Char)) :
    ['\n'].intercalate (above ++ line :: below) =
      above.flatMap (· ++ ['\n']) ++ ['\n'].intercalate (line :: below) := by
  induction above with
  | nil => rfl
  | cons first above ih =>
    rw [List.cons_append, List.intercalate_cons_of_ne_nil (by simp), ih, List.flatMap_cons]
    simp only [List.append_assoc]

variable {s : Spot} {start : Nat} {text : List Char}

theorem At.exists_eq_before_append (h : s.At start text) : ∃ more, text = s.before ++ more := by
  have htext : ['\n'].intercalate (linesOf text) = text := List.intercalate_splitOn '\n'
  rw [h.lines_eq, intercalate_above] at htext
  rw [← htext, before]
  cases s.below with
  | nil => exact ⟨s.back, by simp⟩
  | cons line below =>
    exact ⟨s.back ++ '\n' :: ['\n'].intercalate (line :: below), by
      simp [List.intercalate_cons_cons]⟩

theorem before_length_eq_iff (s : Spot) : s.before.length = s.front.length ↔ s.above = [] := by
  cases habove : s.above with
  | nil => simp [before, habove]
  | cons line above =>
    simp only [before, habove, List.flatMap_cons, List.length_append, List.length_singleton,
      reduceCtorEq, iff_false]
    omega

theorem At.of_single_line (h : s.At start text) (hline : '\n' ∉ text) :
    s.above = [] ∧ s.below = [] := by
  have hlength := congrArg List.length h.lines_eq
  rw [linesOf_single hline, List.length_singleton, List.length_append, List.length_cons] at hlength
  exact ⟨List.length_eq_zero_iff.mp (by omega), List.length_eq_zero_iff.mp (by omega)⟩

/-- Every byte at which a character begins, or the text ends, has its place. -/
theorem exists_at (before after : List Char) :
    ∃ s : Spot, s.At (byteSize before) (before ++ after) := by
  induction before with
  | nil =>
    obtain ⟨line, lines, hlines⟩ := exists_linesOf after
    exact ⟨⟨[], [], line, lines⟩, hlines, rfl⟩
  | cons c rest ih =>
    obtain ⟨⟨above, front, back, below⟩, hlines, hstart⟩ := ih
    by_cases hc : c = '\n'
    · subst hc
      refine ⟨⟨[] :: above, front, back, below⟩, ?_, ?_⟩
      · rw [List.cons_append, linesOf_newline, hlines, List.cons_append]
      · simpa [Spot.before] using hstart
    · cases above with
      | nil =>
        refine ⟨⟨[], c :: front, back, below⟩, linesOf_cons hc hlines, ?_⟩
        simpa [Spot.before] using hstart
      | cons line above =>
        refine ⟨⟨(c :: line) :: above, front, back, below⟩, linesOf_cons hc hlines, ?_⟩
        simpa [Spot.before, Nat.add_assoc] using hstart

end Spot
end RecordFilter
