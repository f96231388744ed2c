import RecordFilter.Proofs.Lookup

/-!
Pieces of a filter text. A span covers a piece if both of its ends are between characters, and each
kind of token is spelled by pieces of its own. What is read as a token is a piece that spells it.
-/
namespace RecordFilter

/-- The span holds this piece of the text, with whole characters on both sides. -/
def Span.Covers (span : Span) (text piece : List Char) : Prop :=
  ∃ before after, text = before ++ piece ++ after ∧
    span = ⟨byteSize before, byteSize (before ++ piece)⟩

/-- The content of a string that is written between quotes: a backslash before a quote or a
backslash is taken away. -/
def unguarded : List Char → List Char
  | '\\' :: '"' :: rest => '"' :: unguarded rest
  | '\\' :: '\\' :: rest => '\\' :: unguarded rest
  | c :: rest => c :: unguarded rest
  | [] => []

/-- The pieces of text that are tokens of a kind. Only operators can be spelled in letters of either
case; numbers lose a plus sign in front. -/
def TokenKind.SpelledBy (v : Vocabulary) (piece : List Char) : TokenKind → Prop
  | .field path => piece = path.toList
  | .literal .string text => ∃ raw, piece = '"' :: raw ++ ['"'] ∧ unguarded raw = text.toList
  | .literal .number text => withoutPlus piece = text.toList
  | .literal _ text => piece = text.toList
  | .comparison op ignoreCase => piece.map Char.toLower =
      (v.spelling.comparisonText op ignoreCase).toList.map Char.toLower
  | .logical op => piece.map Char.toLower = (v.spelling.logical op).toList.map Char.toLower
  | .openParen => piece = ['(']
  | .closeParen => piece = [')']
  | .openBracket => piece = ['[']
  | .closeBracket => piece = [']']
  | .comma => piece = [',']
  | .endOfInput => False

namespace Span.Covers

variable {span : Span} {text piece : List Char}

theorem start_le_stop (h : span.Covers text piece) : span.start ≤ span.stop := by
  obtain ⟨before, after, _, rfl⟩ := h
  simp only [byteSize_append]
  omega

theorem start_lt_stop (h : span.Covers text piece) (hne : piece ≠ []) :
    span.start < span.stop := by
  obtain ⟨before, after, _, rfl⟩ := h
  have hsize : byteSize piece ≠ 0 := fun hzero => hne (byteSize_eq_zero.mp hzero)
  simp only [byteSize_append]
  omega

theorem stop_le (h : span.Covers text piece) : span.stop ≤ byteSize text := by
  obtain ⟨before, after, rfl, rfl⟩ := h
  simp only [byteSize_append]
  omega

end Span.Covers

/-! Operators. -/

/-- A word that a text starts with is there in letters of either case. -/
theorem piece_of_startsIgnoringCase {word rest : List Char} {c : Char} (hne : word ≠ [])
    (h : startsIgnoringCase word (c :: rest) = true) :
    (c :: rest.take (word.length - 1)).map Char.toLower = word.map Char.toLower ∧
      word.length - 1 ≤ rest.length := by
  have hlength := length_le_of_startsIgnoringCase h
  have hprefix := List.prefix_iff_eq_take.mp (startsIgnoringCase_iff.mp h)
  have hpos := List.length_pos_iff.mpr hne
  obtain ⟨k, hk⟩ : ∃ k, word.length = k + 1 := ⟨word.length - 1, by omega⟩
  rw [List.length_map, ← List.map_take, hk, List.take_succ_cons] at hprefix
  rw [hk, Nat.add_sub_cancel, hprefix]
  simp only [List.length_cons] at hlength
  exact ⟨rfl, by omega⟩

theorem Spelling.WellFormed.comparisonText_ne_nil {s : Spelling} (h : s.WellFormed) (op : CompareOp)
    (ignoreCase : Bool) : (s.comparisonText op ignoreCase).toList ≠ [] := by
  have hne : (s.comparison op).toList ≠ [] := h.word_ne_nil (.comparison op)
  simp [Spelling.comparisonText, hne]

/-! Literals. -/

/-- A character is kept unless it is a backslash before a quote or a backslash. -/
theorem unguarded_cons {c : Char} {raw : List Char}
    (h : c = '\\' → ∀ d ∈ raw.head?, d ≠ '"' ∧ d ≠ '\\') :
    unguarded (c :: raw) = c :: unguarded raw := by
  cases raw with
  | nil => simp [unguarded]
  | cons d ds =>
    by_cases hc : c = '\\'
    · obtain ⟨hquote, hslash⟩ := h hc d rfl
      rw [unguarded.eq_3 _ _ (by simp [hquote]) (by simp [hslash])]
    · rw [unguarded.eq_3 _ _ (fun _ h => absurd h hc) (fun _ h => absurd h hc)]

/-- A string ends at a quote, and what stands before the quote is its content in guarded form. -/
theorem readQuoted_cases {text content : List Char} {n : Nat}
    (h : readQuoted text = some (content, n)) :
    ∃ raw tail, text = raw ++ '"' :: tail ∧ n = raw.length + 1 ∧ unguarded raw = content := by
  induction text using readQuoted.induct generalizing content n with
  | case1 => cases h
  | case2 rest =>
    cases h
    exact ⟨[], rest, rfl, rfl, rfl⟩
  | case3 rest ih =>
    obtain ⟨⟨content, n⟩, hread, heq⟩ := Option.map_eq_some_iff.mp h
    cases heq
    obtain ⟨raw, tail, rfl, rfl, rfl⟩ := ih hread
    exact ⟨'\\' :: '"' :: raw, tail, rfl, rfl, rfl⟩
  | case4 rest ih =>
    obtain ⟨⟨content, n⟩, hread, heq⟩ := Option.map_eq_some_iff.mp h
    cases heq
    obtain ⟨raw, tail, rfl, rfl, rfl⟩ := ih hread
    exact ⟨'\\' :: '\\' :: raw, tail, rfl, rfl, rfl⟩
  | case5 c rest hquote hescapedQuote hescapedSlash ih =>
    rw [readQuoted.eq_5 c rest hquote hescapedQuote hescapedSlash] at h
    obtain ⟨⟨content, n⟩, hread, heq⟩ := Option.map_eq_some_iff.mp h
    cases heq
    obtain ⟨raw, tail, rfl, rfl, rfl⟩ := ih hread
    refine ⟨c :: raw, tail, rfl, rfl, unguarded_cons fun hc d hd => ?_⟩
    obtain ⟨ds, rfl⟩ := List.head?_eq_some_iff.mp hd
    constructor
    · rintro rfl
      exact hescapedQuote _ hc rfl
    · rintro rfl
      exact hescapedSlash _ hc rfl

theorem take_length_takeWhile (p : Char → Bool) (cs : List Char) :
    cs.take (cs.takeWhile p).length = cs.takeWhile p :=
  (List.prefix_iff_eq_take.mp (List.takeWhile_prefix p)).symm

/-! What is read. -/

/-- A token is read as a piece that spells it, which is as long as it is said to be. -/
theorem spelledBy_of_begins (v : CheckedVocabulary) {c : Char} {rest : List Char}
    {kind : TokenKind} {n : Nat} (hbegins : Begins v c rest kind n) :
    kind.SpelledBy v (c :: rest.take n) ∧ n ≤ rest.length := by
  cases hbegins with
  | @comparison m hm =>
    obtain ⟨⟨hlength, hthere, _⟩, _⟩ := v.matchComparison_eq_some_iff.mp hm
    rw [hlength, ← String.length_toList, TokenKind.SpelledBy]
    have hne := v.wellFormed.comparisonText_ne_nil m.op m.ignoreCase
    exact piece_of_startsIgnoringCase hne hthere.1
  | @logical op length hm =>
    obtain ⟨⟨hlength, hthere⟩, _⟩ := v.matchLogical_eq_some_iff.mp hm
    rw [hlength, ← String.length_toList, TokenKind.SpelledBy]
    exact piece_of_startsIgnoringCase (v.wellFormed.word_ne_nil (.logical op)) hthere.1
  | punctuation hpunct =>
    refine ⟨?_, Nat.zero_le _⟩
    unfold punctuation? at hpunct
    split at hpunct <;> cases hpunct <;> rfl
  | string hquote hread =>
    obtain ⟨raw, tail, rfl, rfl, hraw⟩ := readQuoted_cases hread
    have htake : (raw ++ '"' :: tail).take (raw.length + 1) = raw ++ ['"'] := by
      rw [List.take_append, List.take_of_length_le (Nat.le_succ _), Nat.add_sub_cancel_left]
      rfl
    refine ⟨⟨raw, ?_, ?_⟩, ?_⟩
    · rw [hquote, htake, List.cons_append]
    · rw [hraw, String.toList_ofList]
    · simp only [List.length_append, List.length_cons]
      omega
  | number hnumber hkind =>
    refine ⟨?_, (List.takeWhile_prefix _).length_le⟩
    rw [take_length_takeWhile]
    obtain ⟨_, rfl⟩ | ⟨_, rfl⟩ := numberKind?_cases hkind
    · simp [TokenKind.SpelledBy]
    · simp [TokenKind.SpelledBy]
  | word hstart hdigit hkind =>
    refine ⟨?_, (List.takeWhile_prefix _).length_le⟩
    rw [take_length_takeWhile]
    obtain rfl | rfl | rfl := wordKind?_cases hkind <;> simp [TokenKind.SpelledBy]

end RecordFilter
