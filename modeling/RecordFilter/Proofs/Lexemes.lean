import RecordFilter.Condition
import RecordFilter.Outcome
import RecordFilter.Token.Scan

/-!
Fields and literals as they are written. Whatever a scan takes for a field or a literal is written
as a text that every scan takes for the same field or literal, where one is expected and where
nothing follows that would lengthen it.
-/
namespace RecordFilter

/-- No field, number or keyword goes on in `after`. -/
def Separated (after : List Char) : Prop :=
  ∀ c ∈ after.head?, isWordChar c = false ∧ isNumberChar c = false

theorem separated_nil : Separated [] := by simp [Separated]

theorem separated_cons {c : Char} (hword : isWordChar c = false) (hnumber : isNumberChar c = false)
    (rest : List Char) : Separated (c :: rest) := by
  simp [Separated, hword, hnumber]

theorem separated_blank (rest : List Char) : Separated (' ' :: rest) := separated_cons rfl rfl rest

/-- A run of characters ends where one with the property is followed by one without it. -/
theorem takeWhile_append_eq {p : Char → Bool} {cs after : List Char} (hcs : ∀ c ∈ cs, p c = true)
    (hafter : ∀ c ∈ after.head?, p c = false) : (cs ++ after).takeWhile p = cs := by
  have hstop : after.takeWhile p = [] := by
    cases after with
    | nil => rfl
    | cons c rest => simp [hafter c rfl]
  rw [List.takeWhile_append_of_pos hcs, hstop, List.append_nil]

/-! Characters. -/

theorem mem_reserved {c : Char} (h : isReserved c = true) :
    c = '"' ∨ c = '(' ∨ c = ')' ∨ c = '[' ∨ c = ']' ∨ c = ',' := by
  simpa [isReserved] using h

theorem punctuation?_eq_none {c : Char} (h : isReserved c = false) : punctuation? c = none := by
  unfold punctuation?
  split <;> first | rfl | exact absurd h (by decide)

theorem ne_quote_of_not_reserved {c : Char} (h : isReserved c = false) : c ≠ '"' := by
  rintro rfl
  exact absurd h (by decide)

/-- Nothing that is reserved for punctuation or quotes begins a word. -/
theorem not_wordStart_of_reserved {c : Char} (h : isReserved c = true) : isWordStart c = false := by
  obtain rfl | rfl | rfl | rfl | rfl | rfl := mem_reserved h <;> rfl

theorem not_digit_of_reserved {c : Char} (h : isReserved c = true) : c.isDigit = false := by
  obtain rfl | rfl | rfl | rfl | rfl | rfl := mem_reserved h <;> rfl

theorem not_blank_of_reserved {c : Char} (h : isReserved c = true) : isBlank c = false := by
  obtain rfl | rfl | rfl | rfl | rfl | rfl := mem_reserved h <;> rfl

theorem reserved_of_punctuation {c : Char} {kind : TokenKind} (h : punctuation? c = some kind) :
    isReserved c = true := by
  cases hc : isReserved c with
  | true => rfl
  | false =>
    rw [punctuation?_eq_none hc] at h
    cases h

/-- Punctuation separates words and numbers as a blank does. -/
theorem separated_reserved {c : Char} (h : isReserved c = true) (rest : List Char) :
    Separated (c :: rest) := by
  obtain rfl | rfl | rfl | rfl | rfl | rfl := mem_reserved h <;> exact separated_cons rfl rfl rest

theorem not_reserved_of_wordStart {c : Char} (h : isWordStart c = true) : isReserved c = false := by
  cases hc : isReserved c with
  | false => rfl
  | true => rw [not_wordStart_of_reserved hc] at h; cases h

theorem exists_range_of_inRanges {n : Nat} {ranges : List (Nat × Nat)}
    (h : inRanges n ranges = true) : ∃ r ∈ ranges, r.1 ≤ n ∧ n ≤ r.2 := by
  induction ranges with
  | nil => cases h
  | cons r ranges ih =>
    obtain ⟨low, high⟩ := r
    simp only [inRanges] at h
    split at h
    · cases h
    · next hlow =>
      rw [Bool.or_eq_true, decide_eq_true_eq] at h
      obtain hhigh | hrest := h
      · exact ⟨(low, high), List.mem_cons_self, Nat.le_of_not_lt hlow, hhigh⟩
      · obtain ⟨r, hr, hn⟩ := ih hrest
        exact ⟨r, List.mem_cons_of_mem _ hr, hn⟩

def blankCodes : List Nat := blankRanges.flatMap fun r => List.range' r.1 (r.2 + 1 - r.1)

/-- A property of all blanks can be decided on the list of their code points. -/
theorem of_blank {p : Char → Bool} (hp : ∀ n ∈ blankCodes, p (Char.ofNat n) = true) {c : Char}
    (h : isBlank c = true) : p c = true := by
  obtain ⟨r, hr, hlow, hhigh⟩ := exists_range_of_inRanges h
  have hmem : c.toNat ∈ blankCodes :=
    List.mem_flatMap.mpr ⟨r, hr, List.mem_range'_1.mpr ⟨hlow, by omega⟩⟩
  simpa using hp c.toNat hmem

theorem not_numberChar_of_blank {c : Char} (h : isBlank c = true) : isNumberChar c = false := by
  simpa using of_blank (p := fun c => !isNumberChar c) (by decide +kernel) h

/-- A token that is not a string ends before such a character. -/
def isBreak (c : Char) : Bool := isBlank c || isReserved c

theorem isBreak_of_reserved {c : Char} (h : isReserved c = true) : isBreak c = true := by
  rw [isBreak, h, Bool.or_true]

theorem isBreak_of_blank {c : Char} (h : isBlank c = true) : isBreak c = true := by
  rw [isBreak, h, Bool.true_or]

/-- What holds of all blanks and of all reserved characters holds of every break. -/
theorem of_break {p : Char → Bool} (hblank : ∀ n ∈ blankCodes, p (Char.ofNat n) = true)
    (hreserved : ['"', '(', ')', '[', ']', ','].all p = true) {c : Char}
    (h : isBreak c = true) : p c = true := by
  rw [isBreak, Bool.or_eq_true] at h
  obtain h | h := h
  · exact of_blank hblank h
  · exact List.all_eq_true.mp hreserved c (List.contains_iff_mem.mp h)

/-- No word goes on across a blank or a punctuation character. -/
theorem not_wordChar_of_break {c : Char} (h : isBreak c = true) : isWordChar c = false := by
  simpa using of_break (p := fun c => !isWordChar c) (by decide +kernel) (by decide +kernel) h

/-- No number goes on across a blank or a punctuation character. -/
theorem not_numberChar_of_break {c : Char} (h : isBreak c = true) : isNumberChar c = false := by
  simpa using of_break (p := fun c => !isNumberChar c) (by decide +kernel) (by decide) h

theorem not_digit_of_break {c : Char} (h : isBreak c = true) : c.isDigit = false := by
  simpa using of_break (p := fun c => !c.isDigit) (by decide +kernel) (by decide) h

theorem not_blank_of_digit {c : Char} (h : c.isDigit = true) : isBlank c = false := by
  simp only [Char.isDigit, Bool.and_eq_true, decide_eq_true_eq, UInt32.le_iff_toNat_le,
    ge_iff_le] at h
  have hlow : 48 ≤ c.toNat := h.1
  have hhigh : c.toNat ≤ 57 := h.2
  simp only [isBlank, blankRanges, inRanges]
  grind

theorem isNumberChar_of_digit {c : Char} (h : c.isDigit = true) : isNumberChar c = true := by
  simp [isNumberChar, Char.isAlphanum, h]

/-- A number starts with a digit, or with a sign right before one. -/
theorem startsNumber_iff {c : Char} {rest : List Char} :
    startsNumber c rest = true ↔ c.isDigit = true ∨
      (c = '-' ∨ c = '+') ∧ ∃ d ds, rest = d :: ds ∧ d.isDigit = true := by
  cases rest <;> simp [startsNumber]

theorem startsNumber_append {c : Char} {cs : List Char} (h : startsNumber c cs = true)
    (after : List Char) : startsNumber c (cs ++ after) = true := by
  rw [startsNumber_iff] at h ⊢
  obtain hc | ⟨hc, d, ds, rfl, hd⟩ := h
  · exact .inl hc
  · exact .inr ⟨hc, d, ds ++ after, rfl, hd⟩

/-- That a number starts here is seen in its own characters. -/
theorem startsNumber_takeWhile {c : Char} {rest : List Char} (h : startsNumber c rest = true) :
    startsNumber c (rest.takeWhile isNumberChar) = true := by
  rw [startsNumber_iff] at h ⊢
  obtain hc | ⟨hc, d, ds, rfl, hd⟩ := h
  · exact .inl hc
  · exact .inr ⟨hc, d, ds.takeWhile isNumberChar, by simp [isNumberChar_of_digit hd], hd⟩

/-- A number never begins with a character that is reserved for punctuation or quotes. -/
theorem not_reserved_of_startsNumber {c : Char} {rest : List Char}
    (h : startsNumber c rest = true) : isReserved c = false := by
  cases hc : isReserved c with
  | false => rfl
  | true =>
    obtain hdigit | ⟨rfl | rfl, _⟩ := startsNumber_iff.mp h
    · rw [not_digit_of_reserved hc] at hdigit
      cases hdigit
    · exact hc.symm
    · exact hc.symm

theorem not_blank_of_startsNumber {c : Char} {rest : List Char}
    (h : startsNumber c rest = true) : isBlank c = false := by
  obtain hdigit | ⟨rfl | rfl, _⟩ := startsNumber_iff.mp h
  · exact not_blank_of_digit hdigit
  · rfl
  · rfl

/-- Only a digit makes a number of something that could start a field. -/
theorem startsNumber_of_wordStart {c : Char} (h : isWordStart c = true) (rest : List Char) :
    startsNumber c rest = c.isDigit := by
  have hminus : c ≠ '-' := by
    rintro rfl
    exact absurd h (by decide)
  have hplus : c ≠ '+' := by
    rintro rfl
    exact absurd h (by decide)
  simp [startsNumber, hminus, hplus]

/-! Texts that are read back. -/

/-- Where a field or a literal is expected, `text` is read as one token of this kind. -/
def ReadsBack (kind : TokenKind) (text : List Char) : Prop :=
  ∃ c cs, text = c :: cs ∧ isBlank c = false ∧
    ∀ (v : Vocabulary) (e : Expectancy) (after : List Char), e = .field ∨ e = .operand →
      Separated after → readLexeme v e c (cs ++ after) = .ok (kind, cs.length)

/-- Operators are only looked for where one is expected. -/
theorem expectedLexeme?_eq_none {e : Expectancy} (he : e = .field ∨ e = .operand) (v : Vocabulary)
    (text : List Char) : expectedLexeme? v e text = none := by
  obtain rfl | rfl := he <;> rfl

/-- Where no operator is expected, a number takes in every number character after it. -/
theorem readLexeme_number {e : Expectancy} (he : e = .field ∨ e = .operand) {c : Char}
    {rest : List Char} (h : startsNumber c rest = true) (v : Vocabulary) :
    readLexeme v e c rest = (numberKind? (c :: rest.takeWhile isNumberChar)).map
      fun kind => (kind, (rest.takeWhile isNumberChar).length) := by
  have hreserved := not_reserved_of_startsNumber h
  rw [readLexeme, expectedLexeme?_eq_none he, punctuation?_eq_none hreserved]
  simp only [h, if_neg (ne_quote_of_not_reserved hreserved), if_true]
  cases numberKind? (c :: rest.takeWhile isNumberChar) <;> rfl

def isPathChar (c : Char) : Bool := isWordChar c || c == '.'

/-- Where no operator is expected, a word takes in every path character after it. -/
theorem readLexeme_word {e : Expectancy} (he : e = .field ∨ e = .operand) {c : Char}
    (hstart : isWordStart c = true) (hdigit : c.isDigit = false) (rest : List Char)
    (v : Vocabulary) :
    readLexeme v e c rest = (wordKind? (c :: rest.takeWhile isPathChar)).map
      fun kind => (kind, (rest.takeWhile isPathChar).length) := by
  have hreserved := not_reserved_of_wordStart hstart
  have hnumber : startsNumber c rest = false := (startsNumber_of_wordStart hstart rest).trans hdigit
  rw [readLexeme, expectedLexeme?_eq_none he, punctuation?_eq_none hreserved]
  simp only [hnumber, hstart, if_neg (ne_quote_of_not_reserved hreserved), if_true]
  change _ = (wordKind? (c :: rest.takeWhile fun d => isWordChar d || d == '.')).map
    fun kind => (kind, (rest.takeWhile fun d => isWordChar d || d == '.').length)
  cases wordKind? (c :: rest.takeWhile fun d => isWordChar d || d == '.') <;> rfl

theorem readsBack_number {c : Char} {cs : List Char} {kind : TokenKind}
    (hstart : startsNumber c cs = true) (hcs : ∀ d ∈ cs, isNumberChar d = true)
    (hkind : numberKind? (c :: cs) = .ok kind) : ReadsBack kind (c :: cs) := by
  refine ⟨c, cs, rfl, not_blank_of_startsNumber hstart, ?_⟩
  intro v e after he hafter
  rw [readLexeme_number he (startsNumber_append hstart after),
    takeWhile_append_eq hcs fun d hd => (hafter d hd).2, hkind]
  rfl

/-- A word that is one keyword or path is read back before any separator. -/
theorem readsBack_word {c : Char} {cs : List Char} {kind : TokenKind} (hblank : isBlank c = false)
    (hstart : isWordStart c = true) (hdigit : c.isDigit = false)
    (hcs : ∀ d ∈ cs, isPathChar d = true) (hkind : wordKind? (c :: cs) = .ok kind) :
    ReadsBack kind (c :: cs) := by
  refine ⟨c, cs, rfl, hblank, ?_⟩
  intro v e after he hafter
  have hstop : ∀ d ∈ after.head?, isPathChar d = false := by
    intro d hd
    have hpoint : d ≠ '.' := by
      rintro rfl
      exact absurd (hafter _ hd).2 (by decide)
    simp [isPathChar, (hafter d hd).1, hpoint]
  rw [readLexeme_word he hstart hdigit, takeWhile_append_eq hcs hstop, hkind]
  rfl

def readQuoted : List Char → Option (List Char × Nat)
  | [] => none
  | '"' :: _ => some ([], 1)
  | '\\' :: '"' :: rest => (readQuoted rest).map fun (content, n) => ('"' :: content, n + 2)
  | '\\' :: '\\' :: rest => (readQuoted rest).map fun (content, n) => ('\\' :: content, n + 2)
  | c :: rest => (readQuoted rest).map fun (content, n) => (c :: content, n + 1)

namespace StringProgress

variable {whole rest : List Char} {p : StringProgress} {c : Char}

@[simp] theorem passed_keep : (p.keep c).passed = p.passed + 1 := rfl

@[simp] theorem passed_unescape : (p.unescape whole c).passed = p.passed + 2 := rfl

/-- Keeping a character puts it at the end of the content, whether there is a buffer or not. -/
theorem content_keep (h : whole.drop p.passed = c :: rest) :
    (p.keep c).content whole = (p.content whole).push c := by
  obtain ⟨passed, buffer⟩ := p
  cases buffer with
  | some buffer => rfl
  | none =>
    have htake : whole.take (passed + 1) = whole.take passed ++ [c] := by
      rw [List.take_add, h]
      rfl
    change String.ofList (whole.take (passed + 1)) = (String.ofList (whole.take passed)).push c
    rw [htake, String.ofList_append, String.push_eq_append]
    rfl

@[simp] theorem content_unescape :
    (p.unescape whole c).content whole = (p.content whole).push c := rfl

end StringProgress

theorem push_append_ofList (s : String) (c : Char) (cs : List Char) :
    s.push c ++ String.ofList cs = s ++ String.ofList (c :: cs) := by
  rw [String.push_eq_append, String.append_assoc, String.ofList_cons]

/-- What is read comes after what has been read, whether there is a buffer or not. -/
theorem readStringFrom_eq {whole text : List Char} {p : StringProgress}
    (h : whole.drop p.passed = text) :
    readStringFrom whole p text = (readQuoted text).map fun found =>
      (p.content whole ++ String.ofList found.1, p.passed + found.2) := by
  induction text using readQuoted.induct generalizing p with
  | case1 => rfl
  | case2 rest => simp [readStringFrom, readQuoted]
  | case3 rest ih | case4 rest ih =>
    have hrest : whole.drop (p.passed + 2) = rest := by rw [← List.drop_drop, h]; rfl
    rw [readStringFrom, readQuoted, ih hrest, Option.map_map]
    congr 1
    funext found
    simp [push_append_ofList, Nat.add_right_comm, ← Nat.add_assoc]
  | case5 c rest hquote hescapedQuote hescapedSlash ih =>
    have hrest : whole.drop (p.passed + 1) = rest := by rw [← List.drop_drop, h]; rfl
    rw [readStringFrom.eq_5 _ _ _ _ hquote hescapedQuote hescapedSlash,
      readQuoted.eq_5 _ _ hquote hescapedQuote hescapedSlash, ih hrest, Option.map_map]
    congr 1
    funext found
    simp [StringProgress.content_keep h, push_append_ofList, Nat.add_right_comm, ← Nat.add_assoc]

/-- Reading with a lazily filled buffer gives what reading without one gives. -/
theorem readString_eq (text : List Char) :
    readString text = (readQuoted text).map fun found => (String.ofList found.1, found.2) := by
  have hdrop : text.drop (StringProgress.passed {}) = text := rfl
  rw [readString, readStringFrom_eq hdrop]
  simp [StringProgress.content]

/-- A string with every quote and backslash guarded reads back, whatever stands behind its closing
quote. -/
theorem readQuoted_guarded (cs after : List Char) :
    readQuoted (cs.flatMap guarded ++ '"' :: after) =
      some (cs, (cs.flatMap guarded).length + 1) := by
  induction cs with
  | nil => rfl
  | cons c cs ih =>
    by_cases hquote : c = '"'
    · subst hquote
      simp [guarded, readQuoted, ih]
    · by_cases hslash : c = '\\'
      · subst hslash
        simp [guarded, readQuoted, ih]
      · have hc : guarded c = [c] := by simp [guarded, hquote, hslash]
        rw [List.flatMap_cons, hc, List.append_assoc, List.singleton_append, readQuoted.eq_5 _ _
          hquote (fun _ h => absurd h hslash) (fun _ h => absurd h hslash), ih]
        rfl

theorem readString_guarded (cs after : List Char) :
    readString (cs.flatMap guarded ++ '"' :: after) =
      some (String.ofList cs, (cs.flatMap guarded).length + 1) := by
  rw [readString_eq, readQuoted_guarded]
  rfl

/-- Any content at all can be written as a string and read back. -/
theorem readsBack_string (cs : List Char) :
    ReadsBack (.literal .string (String.ofList cs)) ('"' :: cs.flatMap guarded ++ ['"']) := by
  refine ⟨'"', cs.flatMap guarded ++ ['"'], rfl, rfl, ?_⟩
  intro v e after he hafter
  rw [readLexeme, expectedLexeme?_eq_none he, List.append_assoc]
  simp only [if_true, List.singleton_append, readString_guarded, List.length_append,
    List.length_singleton]
  rfl

/-- The text that a field or a literal is written as is read back as it. -/
def TokenKind.Legible : TokenKind → Prop
  | .field path => ReadsBack (.field path) path.toList
  | .literal kind text => ReadsBack (.literal kind text) (Literal.write ⟨kind, text, {}⟩).toList
  | _ => True

/-- A word is a keyword of the literals or a field. -/
theorem wordKind?_cases {text : List Char} {kind : TokenKind} (h : wordKind? text = .ok kind) :
    kind = .literal .boolean (String.ofList text) ∨ kind = .literal .null (String.ofList text) ∨
      kind = .field (String.ofList text) := by
  simp only [wordKind?] at h
  grind

/-- Whatever kind a word is read as, it is written as that word again. -/
theorem legible_word {c : Char} {cs : List Char} {kind : TokenKind} (hblank : isBlank c = false)
    (hstart : isWordStart c = true) (hdigit : c.isDigit = false)
    (hcs : ∀ d ∈ cs, isPathChar d = true) (hkind : wordKind? (c :: cs) = .ok kind) :
    kind.Legible := by
  have hread := readsBack_word hblank hstart hdigit hcs hkind
  obtain rfl | rfl | rfl := wordKind?_cases hkind
  · simpa [TokenKind.Legible, Literal.write] using hread
  · simpa [TokenKind.Legible, Literal.write] using hread
  · simpa [TokenKind.Legible] using hread

/-- Number characters are a decimal, without its plus sign, or else a date. -/
theorem numberKind?_cases {text : List Char} {kind : TokenKind} (h : numberKind? text = .ok kind) :
    (Decimal.read (withoutPlus text)).isSome = true ∧
        kind = .literal .number (String.ofList (withoutPlus text)) ∨
      looksLikeDate text = true ∧ kind = .literal .date (String.ofList text) := by
  simp only [numberKind?] at h
  grind

theorem withoutPlus_eq {c : Char} (hc : c ≠ '+') (cs : List Char) :
    withoutPlus (c :: cs) = c :: cs := by
  unfold withoutPlus
  split
  · next h =>
    cases h
    exact absurd rfl hc
  · rfl

/-- A date does not begin with a sign, so what a plus sign is taken from is a number. -/
theorem looksLikeDate_plus (cs : List Char) : looksLikeDate ('+' :: cs) = false := by
  unfold looksLikeDate
  split
  · next h =>
    cases h
    rfl
  · rfl

/-- A plus sign is not written again, and what comes after it is a number without it. -/
theorem legible_number {c : Char} {cs : List Char} {kind : TokenKind}
    (hstart : startsNumber c cs = true) (hcs : ∀ d ∈ cs, isNumberChar d = true)
    (hkind : numberKind? (c :: cs) = .ok kind) : kind.Legible := by
  by_cases hc : c = '+'
  · subst hc
    obtain hdigit | ⟨_, d, ds, rfl, hd⟩ := startsNumber_iff.mp hstart
    · exact absurd hdigit (by decide)
    · obtain ⟨hsome, rfl⟩ | ⟨hdate, _⟩ := numberKind?_cases hkind
      · have hplus : d ≠ '+' := by
          rintro rfl
          exact absurd hd (by decide)
        have hkind' : numberKind? (d :: ds) = .ok (.literal .number (String.ofList (d :: ds))) := by
          rw [numberKind?, withoutPlus_eq hplus]
          exact if_pos hsome
        have hread := readsBack_number (startsNumber_iff.mpr (.inl hd))
          (fun x hx => hcs x (List.mem_cons_of_mem d hx)) hkind'
        simpa [TokenKind.Legible, Literal.write, withoutPlus] using hread
      · rw [looksLikeDate_plus] at hdate
        cases hdate
  · have hread := readsBack_number hstart hcs hkind
    obtain ⟨_, rfl⟩ | ⟨_, rfl⟩ := numberKind?_cases hkind
    · rw [withoutPlus_eq hc] at hread ⊢
      simpa [TokenKind.Legible, Literal.write] using hread
    · simpa [TokenKind.Legible, Literal.write] using hread

theorem legible_punctuation {c : Char} {kind : TokenKind} (h : punctuation? c = some kind) :
    kind.Legible := by
  unfold punctuation? at h
  split at h <;> cases h <;> trivial

/-! What a lexeme is. -/

/-- What a token that starts with `c` and goes on in `rest` can be, with the number of characters
that it has after the first. -/
inductive Begins (v : Vocabulary) (c : Char) (rest : List Char) : TokenKind → Nat → Prop
  | comparison {m : Vocabulary.OperatorMatch} : v.matchComparison (c :: rest) = some m →
    Begins v c rest (.comparison m.op m.ignoreCase) (m.length - 1)
  | logical {op : LogicalOp} {length : Nat} : v.matchLogical (c :: rest) = some (op, length) →
    Begins v c rest (.logical op) (length - 1)
  | punctuation {kind : TokenKind} : punctuation? c = some kind → Begins v c rest kind 0
  | string {content : List Char} {n : Nat} : c = '"' → readQuoted rest = some (content, n) →
    Begins v c rest (.literal .string (String.ofList content)) n
  | number {kind : TokenKind} : startsNumber c rest = true →
    numberKind? (c :: rest.takeWhile isNumberChar) = .ok kind →
    Begins v c rest kind (rest.takeWhile isNumberChar).length
  | word {kind : TokenKind} : isWordStart c = true → c.isDigit = false →
    wordKind? (c :: rest.takeWhile isPathChar) = .ok kind →
    Begins v c rest kind (rest.takeWhile isPathChar).length

/-- Why no token starts with `c` and goes on in `rest`. -/
inductive Balks (c : Char) (rest : List Char) : ScanFault → Prop
  | string : c = '"' → Balks c rest .unterminatedString
  | number : Balks c rest (.malformedLiteral (String.ofList (c :: rest.takeWhile isNumberChar)))
  | word : Balks c rest (.malformedPath (String.ofList (c :: rest.takeWhile isPathChar)))
  | stray : Balks c rest (.unexpectedChar c)

def ReadsAs (v : Vocabulary) (c : Char) (rest : List Char) : Except ScanFault Lexeme → Prop
  | .ok (kind, n) => Begins v c rest kind n
  | .error fault => Balks c rest fault

theorem numberKind?_error {text : List Char} {fault : ScanFault}
    (h : numberKind? text = .error fault) : fault = .malformedLiteral (String.ofList text) := by
  simp only [numberKind?] at h
  grind

theorem wordKind?_error {text : List Char} {fault : ScanFault}
    (h : wordKind? text = .error fault) : fault = .malformedPath (String.ofList text) := by
  simp only [wordKind?] at h
  grind

section

variable {v : Vocabulary} {c : Char} {rest : List Char} {kind : TokenKind} {n : Nat}

theorem begins_of_comparisonLexeme (h : comparisonLexeme? v (c :: rest) = some (kind, n)) :
    Begins v c rest kind n := by
  obtain ⟨m, hm, heq⟩ := Option.map_eq_some_iff.mp h
  cases heq
  exact .comparison hm

theorem begins_of_logicalLexeme (h : logicalLexeme? v (c :: rest) = some (kind, n)) :
    Begins v c rest kind n := by
  obtain ⟨⟨op, length⟩, hm, heq⟩ := Option.map_eq_some_iff.mp h
  cases heq
  exact .logical hm

/-- Where an operator is expected, what is found is that operator. -/
theorem begins_of_expectedLexeme {e : Expectancy}
    (h : expectedLexeme? v e (c :: rest) = some (kind, n)) : Begins v c rest kind n := by
  cases e with
  | comparison => exact begins_of_comparisonLexeme h
  | connective => exact begins_of_logicalLexeme h
  | field | operand => cases h

/-- Where no operator is read, the first character tells what a token is. -/
theorem readsAs_strayLexeme (v : Vocabulary) (c : Char) (rest : List Char) :
    ReadsAs v c rest (strayLexeme v c rest) := by
  unfold strayLexeme
  cases h : (logicalLexeme? v (c :: rest)).or (comparisonLexeme? v (c :: rest)) with
  | none => exact .stray
  | some lexeme =>
    obtain h | ⟨_, h⟩ := Option.or_eq_some_iff.mp h
    · exact begins_of_logicalLexeme h
    · exact begins_of_comparisonLexeme h

/-- Whatever is expected, a lexeme is read as what the text begins with. -/
theorem readsAs_readLexeme (v : Vocabulary) (e : Expectancy) (c : Char) (rest : List Char) :
    ReadsAs v c rest (readLexeme v e c rest) := by
  unfold readLexeme
  cases hop : expectedLexeme? v e (c :: rest) with
  | some lexeme => exact begins_of_expectedLexeme hop
  | none =>
    cases hpunct : punctuation? c with
    | some kind => exact .punctuation hpunct
    | none =>
      simp only
      by_cases hquote : c = '"'
      · rw [if_pos hquote]
        rw [readString_eq]
        cases hread : readQuoted rest with
        | none => exact .string hquote
        | some found => exact .string hquote hread
      rw [if_neg hquote]
      by_cases hnumber : startsNumber c rest = true
      · rw [if_pos hnumber]
        cases hkind : numberKind? (c :: rest.takeWhile isNumberChar) with
        | error fault =>
          obtain rfl := numberKind?_error hkind
          exact .number
        | ok kind => exact .number hnumber hkind
      rw [if_neg hnumber]
      by_cases hstart : isWordStart c = true
      · rw [if_pos hstart]
        have hdigit : c.isDigit = false := by
          rw [← startsNumber_of_wordStart hstart rest]
          exact eq_false_of_ne_true hnumber
        change ReadsAs v c rest (do
          return (← wordKind? (c :: rest.takeWhile isPathChar), (rest.takeWhile isPathChar).length))
        cases hkind : wordKind? (c :: rest.takeWhile isPathChar) with
        | error fault =>
          obtain rfl := wordKind?_error hkind
          exact .word
        | ok kind => exact .word hstart hdigit hkind
      · rw [if_neg hstart]
        exact readsAs_strayLexeme v c rest

/-- Every token that is read is one of the possible ones. -/
theorem begins_of_readLexeme {e : Expectancy} (h : readLexeme v e c rest = .ok (kind, n)) :
    Begins v c rest kind n := by
  have hreads := readsAs_readLexeme v e c rest
  rwa [h] at hreads

/-- Every fault has a reason in the text. -/
theorem balks_of_readLexeme {e : Expectancy} {fault : ScanFault}
    (h : readLexeme v e c rest = .error fault) : Balks c rest fault := by
  have hreads := readsAs_readLexeme v e c rest
  rwa [h] at hreads

/-- Everything that is read is written legibly. -/
theorem Begins.legible (hblank : isBlank c = false) (h : Begins v c rest kind n) :
    kind.Legible := by
  cases h with
  | comparison | logical => trivial
  | punctuation hpunct => exact legible_punctuation hpunct
  | string hquote hread => simpa [TokenKind.Legible, Literal.write] using readsBack_string _
  | number hnumber hkind =>
    exact legible_number (startsNumber_takeWhile hnumber) (List.all_eq_true.mp List.all_takeWhile)
      hkind
  | word hstart hdigit hkind =>
    exact legible_word hblank hstart hdigit (List.all_eq_true.mp List.all_takeWhile) hkind

end

end RecordFilter
