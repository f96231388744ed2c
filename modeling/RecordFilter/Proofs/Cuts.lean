import Mathlib.Data.List.Infix
import RecordFilter.Proofs.Seams

/-!
Texts that are cut off after a token. A token that the grammar allows where it stands is read again
when its text is cut off at its end or anywhere behind it, with one exception: what is left of the
text may spell another operator, which was not found in the whole text because a word would have
been split by it.
-/
namespace RecordFilter

/-! Words. -/

namespace Vocabulary

section

variable {word word' text after : List Char}

/-- What stands behind a text as long as the word has no say in whether the word is found. -/
theorem startsIgnoringCase_cut (hle : word.length ≤ text.length) :
    startsIgnoringCase word (text ++ after) = startsIgnoringCase word text := by
  rw [Bool.eq_iff_iff, startsIgnoringCase_iff, startsIgnoringCase_iff, List.map_append]
  exact List.isPrefix_append_of_length (by simpa using hle)

theorem splitsWord_cut {n : Nat} (hlt : n < text.length) :
    splitsWord n (text ++ after) = splitsWord n text := by
  obtain ⟨c, rest, hdrop⟩ := List.exists_cons_of_length_pos
    (show 0 < (text.drop n).length by rw [List.length_drop]; omega)
  unfold splitsWord
  rw [List.take_append_of_le_length hlt.le, List.drop_append_of_le_length hlt.le, hdrop]
  rfl

theorem splitsWord_length (text : List Char) : splitsWord text.length text = false := by
  unfold splitsWord
  rw [List.drop_length]
  cases (text.take text.length).getLast? <;> rfl

/-- A word is split between two of its characters. -/
theorem of_splitsWord (h : splitsWord text.length (text ++ after) = true) :
    (∃ c ∈ text.getLast?, isWordChar c = true) ∧ ∃ d ∈ after.head?, isWordChar d = true := by
  unfold splitsWord at h
  rw [List.take_left, List.drop_left] at h
  cases hlast : text.getLast? <;> cases hhead : after.head? <;> simp_all

/-- A word at the head of a text is there when the text is cut off behind it. -/
theorem wordAt_cut (h : WordAt word (text ++ after)) (hle : word.length ≤ text.length) :
    WordAt word text := by
  refine ⟨(startsIgnoringCase_cut hle).symm.trans h.1, ?_⟩
  obtain hlt | heq := Nat.lt_or_eq_of_le hle
  · exact (splitsWord_cut hlt).symm.trans h.2
  · rw [heq]
    exact splitsWord_length text

/-- It is there in the longer text as well, unless a word is split by it. -/
theorem wordAt_uncut (h : WordAt word text)
    (hsplit : splitsWord word.length (text ++ after) = false) : WordAt word (text ++ after) :=
  ⟨(startsIgnoringCase_cut (length_le_of_startsIgnoringCase h.1)).trans h.1, hsplit⟩

/-- It is there before the cut as well as behind it, or it ends at the cut, which splits a word, and
so does no other word that is there. -/
theorem wordAt_cases (h : WordAt word text) :
    WordAt word (text ++ after) ∨ word.length = text.length ∧
      splitsWord text.length (text ++ after) = true ∧
      ∀ word', WordAt word' (text ++ after) → word'.length ≠ text.length := by
  obtain hlt | heq := Nat.lt_or_eq_of_le (length_le_of_startsIgnoringCase h.1)
  · exact .inl (wordAt_uncut h ((splitsWord_cut hlt).trans h.2))
  · cases hsplit : splitsWord text.length (text ++ after) with
    | false => exact .inl (wordAt_uncut h (heq ▸ hsplit))
    | true =>
      refine .inr ⟨heq, rfl, fun word' h' hlength => ?_⟩
      rw [← hlength, h'.2] at hsplit
      cases hsplit

theorem wordAt_of_same (h : text.map Char.toLower = word.map Char.toLower) : WordAt word text := by
  refine ⟨startsIgnoringCase_iff.mpr (h ▸ List.prefix_rfl), ?_⟩
  have hlength : word.length = text.length := by simpa using (congrArg List.length h).symm
  rw [hlength]
  exact splitsWord_length text

theorem same_of_wordAt (h : WordAt word text) (hlength : word.length = text.length) :
    text.map Char.toLower = word.map Char.toLower :=
  ((startsIgnoringCase_iff.mp h.1).eq_of_length (by simpa using hlength)).symm

end

end Vocabulary

/-! Operators. -/

/-- The piece spells an operator that is looked for before one of this kind or along with it. -/
def TokenKind.OutgrownBy (v : Vocabulary) (piece : List Char) : TokenKind → Prop
  | .comparison op _ => ∃ other ignoreCase,
    (v.spelling.comparison op).utf8ByteSize ≤ (v.spelling.comparison other).utf8ByteSize ∧
      (TokenKind.comparison other ignoreCase).SpelledBy v piece
  | .logical _ => ∃ other, (TokenKind.logical other).SpelledBy v piece
  | _ => False

namespace CheckedVocabulary

open Vocabulary

variable {text after : List Char}

theorem length_pos_of_matchComparison (v : CheckedVocabulary) {m : OperatorMatch}
    (hm : v.matchComparison text = some m) : 0 < m.length := by
  have hlength := (v.matchComparison_eq_some_iff.mp hm).1.1
  rw [hlength, ← String.length_toList]
  exact List.length_pos_iff.mpr (v.wellFormed.comparisonText_ne_nil m.op m.ignoreCase)

theorem length_pos_of_matchLogical (v : CheckedVocabulary) {op : LogicalOp} {length : Nat}
    (hm : v.matchLogical text = some (op, length)) : 0 < length := by
  have hlength := (v.matchLogical_eq_some_iff.mp hm).1.1
  rw [hlength, ← String.length_toList]
  exact List.length_pos_iff.mpr (v.wellFormed.word_ne_nil (.logical op))

/-- No word goes on behind an operator that is found. -/
theorem splitsWord_of_matchComparison (v : CheckedVocabulary) {m : OperatorMatch}
    (hm : v.matchComparison text = some m) : splitsWord m.length text = false := by
  obtain ⟨⟨hlength, hthere, _⟩, _⟩ := v.matchComparison_eq_some_iff.mp hm
  rw [hlength, ← String.length_toList]
  exact hthere.2

theorem splitsWord_of_matchLogical (v : CheckedVocabulary) {op : LogicalOp} {length : Nat}
    (hm : v.matchLogical text = some (op, length)) : splitsWord length text = false := by
  obtain ⟨⟨hlength, hthere⟩, _⟩ := v.matchLogical_eq_some_iff.mp hm
  rw [hlength, ← String.length_toList]
  exact hthere.2

/-- A comparison operator is found in a text that is cut off behind it. -/
theorem matchComparison_cut (v : CheckedVocabulary) {m : OperatorMatch}
    (hm : v.matchComparison (text ++ after) = some m) (hle : m.length ≤ text.length)
    (hgrown : m.length < text.length → splitsWord text.length (text ++ after) = true →
      ¬ (TokenKind.comparison m.op m.ignoreCase).OutgrownBy v text) :
    v.matchComparison text = some m := by
  obtain ⟨⟨hlength, hthere, hplain⟩, hlongest⟩ := v.matchComparison_eq_some_iff.mp hm
  rw [← String.length_toList] at hlength
  have hcases : ∀ op ignoreCase, WordAt (v.spelling.comparisonText op ignoreCase).toList text →
      (v.spelling.comparison m.op).utf8ByteSize ≤ (v.spelling.comparison op).utf8ByteSize →
      WordAt (v.spelling.comparisonText op ignoreCase).toList (text ++ after) := by
    intro op ignoreCase hword hsize
    obtain hword | ⟨heq, hsplit, hother⟩ := wordAt_cases hword
    · exact hword
    · have hlt : m.length < text.length := by
        have := hother _ hthere
        omega
      exact absurd ⟨op, ignoreCase, hsize, same_of_wordAt hword heq⟩ (hgrown hlt hsplit)
  rw [v.matchComparison_eq_some_iff, ← String.length_toList]
  refine ⟨⟨hlength, wordAt_cut hthere (by omega), fun hcase hwhole => ?_⟩,
    fun op ignoreCase hword => ?_⟩
  · exact hplain hcase (hcases m.op true hwhole (Nat.le_refl _))
  · by_contra hlonger
    exact hlonger (hlongest op ignoreCase (hcases op ignoreCase hword (Nat.le_of_not_le hlonger)))

theorem exists_matchComparison (v : CheckedVocabulary) {op : CompareOp} {ignoreCase : Bool}
    (hword : WordAt (v.spelling.comparisonText op ignoreCase).toList text) :
    ∃ m, v.matchComparison text = some m := by
  refine Option.isSome_iff_exists.mp ?_
  rw [matchComparison, List.findSome?_isSome_iff]
  exact ⟨(v.spelling.comparison op, op), mem_comparisons.mpr rfl,
    v.spelling.matchWord_isSome ⟨_, hword⟩⟩

/-- Another one is found where a longer one is spelled by all that is left. -/
theorem matchComparison_outgrown (v : CheckedVocabulary) {m : OperatorMatch}
    (hm : v.matchComparison (text ++ after) = some m) (hlt : m.length < text.length)
    (hgrown : (TokenKind.comparison m.op m.ignoreCase).OutgrownBy v text) :
    ∃ m', v.matchComparison text = some m' ∧
      (m'.op = m.op → m'.ignoreCase ≠ m.ignoreCase) := by
  obtain ⟨⟨hlength, hthere, _⟩, _⟩ := v.matchComparison_eq_some_iff.mp hm
  obtain ⟨other, ignoreCase, hle, hsame⟩ := hgrown
  have hother := wordAt_of_same hsame
  obtain ⟨m', hm'⟩ := v.exists_matchComparison hother
  obtain ⟨⟨_, _, hplain⟩, hlongest⟩ := v.matchComparison_eq_some_iff.mp hm'
  refine ⟨m', hm', fun hop hcase => ?_⟩
  rw [← String.length_toList] at hlength
  have hhere := wordAt_cut hthere (by omega)
  have hsize := hlongest other ignoreCase hother
  rw [hop] at hsize
  obtain rfl : m.op = other := v.wellFormed.comparison_of_starts (Spelling.starts_of_wordAt hhere)
    (Spelling.starts_of_wordAt hother) (Nat.le_antisymm hle hsize)
  have hwhole : text.length = (v.spelling.comparisonText m.op ignoreCase).toList.length := by
    simpa using congrArg List.length hsame
  rw [hwhole, hlength] at hlt
  obtain ⟨hfound, rfl⟩ := v.spelling.suffixed_of_length_lt hlt
  exact hplain (hcase.trans hfound) (hop ▸ hother)

theorem matchLogical_cut (v : CheckedVocabulary) {op : LogicalOp} {length : Nat}
    (hm : v.matchLogical (text ++ after) = some (op, length))
    (hle : length ≤ text.length)
    (hgrown : length < text.length → splitsWord text.length (text ++ after) = true →
      ¬ (TokenKind.logical op).OutgrownBy v text) :
    v.matchLogical text = some (op, length) := by
  obtain ⟨⟨hlength, hthere⟩, hlongest⟩ := v.matchLogical_eq_some_iff.mp hm
  rw [← String.length_toList] at hlength
  rw [v.matchLogical_eq_some_iff, ← String.length_toList]
  refine ⟨⟨hlength, wordAt_cut hthere (by omega)⟩, fun other hword => hlongest other ?_⟩
  obtain hword | ⟨heq, hsplit, hother⟩ := wordAt_cases hword
  · exact hword
  · have hlt : length < text.length := by
      have := hother _ hthere
      omega
    exact absurd ⟨other, same_of_wordAt hword heq⟩ (hgrown hlt hsplit)

/-- A connective cut out of a text is lost there to another one that the piece spells and that is
looked for first. -/
theorem matchLogical_outgrown (v : CheckedVocabulary) {op : LogicalOp} {length : Nat}
    (hm : v.matchLogical (text ++ after) = some (op, length))
    (hlt : length < text.length)
    (hgrown : (TokenKind.logical op).OutgrownBy v text) :
    ∃ op' length', v.matchLogical text = some (op', length') ∧ op' ≠ op := by
  obtain ⟨⟨hlength, hthere⟩, _⟩ := v.matchLogical_eq_some_iff.mp hm
  obtain ⟨other, hsame⟩ := hgrown
  have hother := wordAt_of_same hsame
  have hsome : (v.matchLogical text).isSome = true := by
    rw [matchLogical, Option.isSome_map, List.find?_isSome]
    refine ⟨(v.spelling.logical other, other), mem_logicals.mpr rfl, ?_⟩
    simpa [WordAt, String.length_toList] using hother
  obtain ⟨⟨op', length'⟩, hm'⟩ := Option.isSome_iff_exists.mp hsome
  refine ⟨op', length', hm', ?_⟩
  rintro rfl
  rw [← String.length_toList] at hlength
  have hhere := wordAt_cut hthere (by omega)
  have hle : (v.spelling.logical op').utf8ByteSize ≤ (v.spelling.logical other).utf8ByteSize := by
    rw [utf8ByteSize_eq, utf8ByteSize_eq, ← byteSize_map_toLower (v.spelling.logical other).toList,
      ← hsame, byteSize_map_toLower]
    exact byteSize_le_of_wordAt hhere
  obtain rfl := v.wellFormed.logical_of_starts hhere.1 hother.1
    (Nat.le_antisymm hle ((v.matchLogical_eq_some_iff.mp hm').2 other hother))
  have hwhole : text.length = (v.spelling.logical op').toList.length := by
    simpa using congrArg List.length hsame
  omega

end CheckedVocabulary

/-! Lexemes. -/

section Lexemes

variable {c : Char} {text after : List Char}

/-- A run that is as long as a text ends with it, so what comes next does not belong to the run. -/
theorem not_of_takeWhile_length {p : Char → Bool} {d : Char}
    (h : ((text ++ after).takeWhile p).length = text.length) (hd : d ∈ after.head?) :
    p d = false := by
  have htaken : (text ++ after).takeWhile p = text := by
    rw [List.prefix_iff_eq_take.mp (List.takeWhile_prefix p), h, List.take_left]
  have htext : ∀ c ∈ text, p c = true := by
    rw [← htaken]
    exact List.all_eq_true.mp List.all_takeWhile
  obtain ⟨rest, rfl⟩ := List.head?_eq_some_iff.mp hd
  rw [List.takeWhile_append_of_pos htext] at htaken
  cases hp : p d with
  | false => rfl
  | true => simp [hp] at htaken

theorem takeWhile_cut {p : Char → Bool} (h : ((text ++ after).takeWhile p).length ≤ text.length) :
    (text ++ after).takeWhile p = text.takeWhile p := by
  rw [List.takeWhile_append] at h ⊢
  split
  · next hall =>
    rw [if_pos hall, List.length_append] at h
    have hnone : after.takeWhile p = [] := List.length_eq_zero_iff.mp (by omega)
    rw [hnone, List.append_nil, (List.takeWhile_prefix p).eq_of_length hall]
  · rfl

/-- Number characters beyond the cut do not decide whether a number begins here. -/
theorem startsNumber_cut (h : startsNumber c (text ++ after) = true)
    (hle : ((text ++ after).takeWhile isNumberChar).length ≤ text.length) :
    startsNumber c text = true := by
  have hnumber := startsNumber_takeWhile h
  rw [takeWhile_cut hle] at hnumber
  simpa using startsNumber_append hnumber (text.dropWhile isNumberChar)

variable {e : Expectancy} {kind : TokenKind} {n : Nat}

/-- A token is read again from a text that is cut off behind it. -/
theorem readLexeme_cut (v : CheckedVocabulary) (hkind : e.Admits kind)
    (hread : readLexeme v e c (text ++ after) = .ok (kind, n)) (hn : n ≤ text.length)
    (hgrown : n < text.length →
      Vocabulary.splitsWord (c :: text).length (c :: text ++ after) = true →
      ¬ kind.OutgrownBy v (c :: text)) :
    readLexeme v e c text = .ok (kind, n) := by
  cases begins_of_readLexeme hread with
  | @comparison m hm =>
    cases hkind
    have hpos := v.length_pos_of_matchComparison hm
    have hle : m.length ≤ (c :: text).length := Nat.le_add_of_sub_le hn
    rw [← List.cons_append] at hm
    have hfound := v.matchComparison_cut hm hle fun hlt =>
      hgrown (Nat.sub_lt_right_of_lt_add hpos hlt)
    simp [readLexeme, expectedLexeme?, comparisonLexeme?, hfound]
  | @logical op length hm =>
    cases hkind
    have hpos := v.length_pos_of_matchLogical hm
    have hle : length ≤ (c :: text).length := Nat.le_add_of_sub_le hn
    rw [← List.cons_append] at hm
    have hfound := v.matchLogical_cut hm hle fun hlt =>
      hgrown (Nat.sub_lt_right_of_lt_add hpos hlt)
    simp [readLexeme, expectedLexeme?, logicalLexeme?, hfound]
  | punctuation hpunct =>
    rw [readLexeme, v.expectedLexeme?_reserved (reserved_of_punctuation hpunct), hpunct]
  | @string content _ hquote hstring =>
    cases hkind
    have htake : (text ++ after).take n <+: text := by
      rw [List.take_append_of_le_length hn]
      exact List.take_prefix n text
    subst hquote
    simp [readLexeme, expectedLexeme?, punctuation?, readString_eq,
      readQuoted_of_take hstring htake]
  | number hnumber hnumberKind =>
    have he : e = .field ∨ e = .operand := by
      obtain ⟨_, rfl⟩ | ⟨_, rfl⟩ := numberKind?_cases hnumberKind <;> cases hkind <;> simp
    rw [readLexeme_number he (startsNumber_cut hnumber hn), ← takeWhile_cut hn, hnumberKind]
    rfl
  | word hstart hdigit hwordKind =>
    have he : e = .field ∨ e = .operand := by
      obtain rfl | rfl | rfl := wordKind?_cases hwordKind <;> cases hkind <;> simp
    rw [readLexeme_word he hstart hdigit, ← takeWhile_cut hn, hwordKind]
    rfl

/-- Only operators are outgrown, and what is read in their place is not the same operator. -/
theorem readLexeme_outgrown (v : CheckedVocabulary) (hkind : e.Admits kind)
    (hread : readLexeme v e c (text ++ after) = .ok (kind, n)) (hlt : n < text.length)
    (hgrown : kind.OutgrownBy v (c :: text)) :
    ∃ kind' n', readLexeme v e c text = .ok (kind', n') ∧ kind' ≠ kind := by
  cases begins_of_readLexeme hread with
  | @comparison m hm =>
    cases hkind
    have hlonger : m.length < (c :: text).length := by
      rw [List.length_cons]
      omega
    rw [← List.cons_append] at hm
    obtain ⟨m', hm', hother⟩ := v.matchComparison_outgrown hm hlonger hgrown
    refine ⟨.comparison m'.op m'.ignoreCase, m'.length - 1, ?_, fun heq => ?_⟩
    · simp [readLexeme, expectedLexeme?, comparisonLexeme?, hm']
    · rw [TokenKind.comparison.injEq] at heq
      exact hother heq.1 heq.2
  | @logical op length hm =>
    cases hkind
    have hlonger : length < (c :: text).length := by
      rw [List.length_cons]
      omega
    rw [← List.cons_append] at hm
    obtain ⟨op', length', hm', hother⟩ := v.matchLogical_outgrown hm hlonger hgrown
    refine ⟨.logical op', length' - 1, ?_, fun heq => hother (TokenKind.logical.inj heq)⟩
    simp [readLexeme, expectedLexeme?, logicalLexeme?, hm']
  | punctuation hpunct =>
    unfold punctuation? at hpunct
    split at hpunct <;> cases hpunct <;> exact hgrown.elim
  | string => exact hgrown.elim
  | number _ hnumber =>
    obtain ⟨_, rfl⟩ | ⟨_, rfl⟩ := numberKind?_cases hnumber <;> exact hgrown.elim
  | word _ _ hword =>
    obtain rfl | rfl | rfl := wordKind?_cases hword <;> exact hgrown.elim

/-- A token that ends where a word goes on is a number or a date, since any other one would take in
what the word goes on with. -/
theorem startsNumber_of_splitsWord (v : CheckedVocabulary)
    (hbegins : Begins v c (text ++ after) kind text.length)
    (hsplit : Vocabulary.splitsWord (c :: text).length (c :: text ++ after) = true) :
    startsNumber c text = true := by
  obtain ⟨⟨last, hlast, hword⟩, d, hd, hnext⟩ := Vocabulary.of_splitsWord hsplit
  generalize hn : text.length = n at hbegins
  cases hbegins with
  | @comparison m hm =>
    have hpos := v.length_pos_of_matchComparison hm
    have hwhole : (c :: text).length = m.length := by
      rw [List.length_cons]
      omega
    rw [hwhole] at hsplit
    exact absurd hsplit (ne_true_of_eq_false (v.splitsWord_of_matchComparison hm))
  | @logical op length hm =>
    have hpos := v.length_pos_of_matchLogical hm
    have hwhole : (c :: text).length = length := by
      rw [List.length_cons]
      omega
    rw [hwhole] at hsplit
    exact absurd hsplit (ne_true_of_eq_false (v.splitsWord_of_matchLogical hm))
  | punctuation hpunct =>
    obtain rfl := List.length_eq_zero_iff.mp hn
    obtain rfl : c = last := by simpa using hlast
    rw [not_wordChar_of_break (isBreak_of_reserved (reserved_of_punctuation hpunct))] at hword
    cases hword
  | string hquote hstring =>
    obtain ⟨raw, rest, heq, rfl, _⟩ := readQuoted_cases hstring
    rw [List.append_cons] at heq
    obtain ⟨rfl, _⟩ := List.append_inj heq (by simp [hn])
    obtain rfl : '"' = last := by
      rw [← List.cons_append, List.getLast?_concat] at hlast
      exact Option.some.inj hlast
    exact absurd hword (by decide)
  | number hnumber => exact startsNumber_cut hnumber hn.ge
  | word =>
    have hpath := not_of_takeWhile_length hn.symm hd
    simp [isPathChar, hnext] at hpath

end Lexemes

end RecordFilter
