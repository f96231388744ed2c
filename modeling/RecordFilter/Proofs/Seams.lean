import RecordFilter.Proofs.Slices

/-!
Texts with something after them. No token reaches over a blank or a reserved character, except for a
string, which ends at its own quote: what is read of a text is read of it again when such a
character and any others come after it.
-/
namespace RecordFilter

section Seam

variable {d : Char}

theorem not_pathChar_of_break (hd : isBreak d = true) : isPathChar d = false := by
  have hpoint : d ≠ '.' := by
    rintro rfl
    exact absurd hd (by decide)
  simp [isPathChar, not_wordChar_of_break hd, hpoint]

theorem takeWhile_seam {p : Char → Bool} (hd : p d = false) (text after : List Char) :
    (text ++ d :: after).takeWhile p = text.takeWhile p := by
  induction text with
  | nil => simp [hd]
  | cons c text ih => simp only [List.cons_append, List.takeWhile_cons, ih]

namespace CheckedVocabulary

/-- Operators have no separator in them, so one behind them is never part of what is found. -/
theorem expectedLexeme?_seam (v : CheckedVocabulary) (hd : isBreak d = true) (e : Expectancy)
    (text after : List Char) :
    expectedLexeme? v e (text ++ d :: after) =
      expectedLexeme? v e text := by
  cases e with
  | comparison => simp only [expectedLexeme?, comparisonLexeme?, v.matchComparison_seam hd]
  | connective => simp only [expectedLexeme?, logicalLexeme?, v.matchLogical_seam hd]
  | field | operand => rfl

/-- Words and numbers end before a separator, so what stands behind it does not change them. -/
theorem strayLexeme_seam (v : CheckedVocabulary) (hd : isBreak d = true) (c : Char)
    (rest after : List Char) :
    strayLexeme v c (rest ++ d :: after) = strayLexeme v c rest := by
  simp only [strayLexeme, logicalLexeme?, comparisonLexeme?, ← List.cons_append,
    v.matchLogical_seam hd, v.matchComparison_seam hd]

/-- No operator is taken for what a reserved character stands for. -/
theorem expectedLexeme?_reserved (v : CheckedVocabulary) (hd : isReserved d = true) (e : Expectancy)
    (rest : List Char) : expectedLexeme? v e (d :: rest) = none := by
  cases e with
  | comparison => simp [expectedLexeme?, comparisonLexeme?, v.matchComparison_reserved hd]
  | connective => simp [expectedLexeme?, logicalLexeme?, v.matchLogical_reserved hd]
  | field | operand => rfl

end CheckedVocabulary

theorem startsNumber_seam (hd : isBreak d = true) (c : Char) (rest after : List Char) :
    startsNumber c (rest ++ d :: after) = startsNumber c rest := by
  cases rest with
  | nil => simp [startsNumber, not_digit_of_break hd]
  | cons => rfl

/-- What is read of a string is read of it in every text that goes as far as the string does: before
its end the next character is the same in both. -/
theorem readQuoted_of_take {text text' content : List Char} {n : Nat}
    (h : readQuoted text = some (content, n)) (htake : text.take n <+: text') :
    readQuoted text' = some (content, n) := by
  induction text using readQuoted.induct generalizing text' content n with
  | case1 => cases h
  | case2 rest =>
    cases h
    obtain ⟨rest', rfl⟩ := htake
    rfl
  | case3 rest ih | case4 rest ih =>
    obtain ⟨⟨content, n⟩, hread, heq⟩ := Option.map_eq_some_iff.mp h
    cases heq
    obtain ⟨rest', rfl⟩ := htake
    have hmore := ih hread (List.prefix_append (rest.take n) rest')
    simp only [List.take_succ_cons, List.cons_append, readQuoted, hmore]
    rfl
  | case5 c rest hquote hescapedQuote hescapedSlash ih =>
    rw [readQuoted.eq_5 c rest hquote hescapedQuote hescapedSlash] at h
    obtain ⟨⟨content, n⟩, hread, heq⟩ := Option.map_eq_some_iff.mp h
    cases heq
    obtain ⟨rest', rfl⟩ := htake
    have hmore := ih hread (List.prefix_append (rest.take n) rest')
    obtain ⟨x, xs, k, rfl, rfl⟩ : ∃ x xs k, rest = x :: xs ∧ n = k + 1 := by
      obtain ⟨raw, tail, rfl, rfl, _⟩ := readQuoted_cases hread
      cases raw with
      | nil => exact ⟨_, _, _, rfl, rfl⟩
      | cons x raw => exact ⟨_, _, _, rfl, rfl⟩
    simp only [List.take_succ_cons, List.cons_append] at hmore ⊢
    rw [readQuoted.eq_5 c _ hquote, hmore]
    · rfl
    · intro ds hc heq
      obtain ⟨rfl, _⟩ := List.cons_eq_cons.mp heq
      exact hescapedQuote xs hc rfl
    · intro ds hc heq
      obtain ⟨rfl, _⟩ := List.cons_eq_cons.mp heq
      exact hescapedSlash xs hc rfl

/-- A lexeme that is read stays the same when a break is put after the text. -/
theorem readLexeme_seam (v : CheckedVocabulary) (hd : isBreak d = true) {e : Expectancy} {c : Char}
    {rest : List Char} {lexeme : Lexeme} (hread : readLexeme v e c rest = .ok lexeme)
    (after : List Char) : readLexeme v e c (rest ++ d :: after) = .ok lexeme := by
  unfold readLexeme at hread ⊢
  rw [← List.cons_append, v.expectedLexeme?_seam hd]
  by_cases hquote : c = '"'
  · have hreserved : isReserved c = true := by rw [hquote]; rfl
    have hpunct : punctuation? c = none := by rw [hquote]; rfl
    simp only [v.expectedLexeme?_reserved hreserved, hpunct, if_pos hquote] at hread ⊢
    rw [readString_eq] at hread ⊢
    cases hstring : readQuoted rest with
    | none => simp [hstring] at hread
    | some found =>
      have htake : rest.take found.2 <+: rest ++ d :: after :=
        (List.take_prefix _ _).trans (List.prefix_append _ _)
      rw [hstring] at hread
      rw [readQuoted_of_take hstring htake]
      exact hread
  · have hpath : (rest ++ d :: after).takeWhile (fun x => isWordChar x || x == '.') =
        rest.takeWhile fun x => isWordChar x || x == '.' :=
      takeWhile_seam (not_pathChar_of_break hd) rest after
    rw [startsNumber_seam hd, takeWhile_seam (not_numberChar_of_break hd), hpath,
      v.strayLexeme_seam hd]
    simp only [if_neg hquote] at hread ⊢
    exact hread

end Seam

end RecordFilter
