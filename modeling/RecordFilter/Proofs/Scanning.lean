import RecordFilter.Proofs.Grammar
import RecordFilter.Proofs.Lexemes

/-!
Scanning what a condition is written as. Where a vocabulary reads back the operators that it is
written with, the scan gives the tokens of the condition, one after the other: after each of them
it expects just what the grammar allows next.
-/
namespace RecordFilter

theorem not_blank_of_dropWhile {text rest : List Char} {c : Char}
    (h : text.dropWhile isBlank = c :: rest) : isBlank c = false := by
  have := List.head?_dropWhile_not isBlank text
  simpa [h] using this

namespace Scanner

variable {v : Vocabulary} {s s' : Scanner} {c : Char} {rest : List Char}

theorem next_finished (v : Vocabulary) (h : s.finished = true) : s.next v = (none, s) := by
  rw [next, if_pos h]

/-- Nothing but blanks is left. -/
theorem next_ended (v : Vocabulary) (hs : s.finished = false)
    (h : s.rest.dropWhile isBlank = []) :
    let start := s.offset + byteSize (s.rest.takeWhile isBlank)
    s.next v = (some (.ok ⟨.endOfInput, ⟨start, start⟩⟩),
      { s with offset := start, rest := [], finished := true }) := by
  simp only [next, hs, h, Bool.false_eq_true, if_false]

/-- After a fault nothing more is given, since the reader is at the end. -/
theorem next_failed {fault : ScanFault} (hs : s.finished = false)
    (h : s.rest.dropWhile isBlank = c :: rest)
    (hread : readLexeme v s.expected c rest = .error fault) :
    let start := s.offset + byteSize (s.rest.takeWhile isBlank)
    s.next v = (some (.error ⟨start, fault⟩),
      { s with offset := start, rest := c :: rest, finished := true }) := by
  simp only [next, hs, h, hread, Bool.false_eq_true, if_false]

theorem next_token {kind : TokenKind} {n : Nat} (hs : s.finished = false)
    (h : s.rest.dropWhile isBlank = c :: rest)
    (hread : readLexeme v s.expected c rest = .ok (kind, n)) :
    let start := s.offset + byteSize (s.rest.takeWhile isBlank)
    let stop := start + byteSize (c :: rest.take n)
    s.next v = (some (.ok ⟨kind, ⟨start, stop⟩⟩),
      { expected := .after kind, offset := stop, rest := rest.drop n }) := by
  simp only [next, hs, h, hread, Bool.false_eq_true, if_false]

theorem steps_finished (v : Vocabulary) (h : s.finished = true) : s.steps v = [] := by
  rw [steps, next_finished v h]

theorem steps_cons {item : Except ScanError Token} (h : s.next v = (some item, s')) :
    s.steps v = item :: s'.steps v := by
  rw [steps, h]

end Scanner

theorem scanFrom_end (v : Vocabulary) (e : Expectancy) (offset : Nat) {text : List Char}
    (h : text.dropWhile isBlank = []) :
    scanFrom v e offset text =
      let start := offset + byteSize (text.takeWhile isBlank)
      [.ok ⟨.endOfInput, ⟨start, start⟩⟩] := by
  rw [scanFrom, Scanner.steps_cons (Scanner.next_ended v rfl h), Scanner.steps_finished v rfl]

/-- A scan goes on behind each lexeme, and ends at the first that cannot be read. -/
theorem scanFrom_cons (v : Vocabulary) (e : Expectancy) (offset : Nat) {text : List Char} {c : Char}
    {rest : List Char} (h : text.dropWhile isBlank = c :: rest) :
    scanFrom v e offset text =
      match readLexeme v e c rest with
      | .error fault => [.error ⟨offset + byteSize (text.takeWhile isBlank), fault⟩]
      | .ok (kind, n) =>
        let start := offset + byteSize (text.takeWhile isBlank)
        let stop := start + byteSize (c :: rest.take n)
        .ok ⟨kind, ⟨start, stop⟩⟩ :: scanFrom v (.after kind) stop (rest.drop n) := by
  rw [scanFrom]
  cases hread : readLexeme v e c rest with
  | error fault =>
    rw [Scanner.steps_cons (Scanner.next_failed rfl h hread), Scanner.steps_finished v rfl]
  | ok lexeme =>
    rw [Scanner.steps_cons (Scanner.next_token rfl h hread)]
    rfl

/-- A blank in front only moves what comes after it. -/
theorem scanFrom_blank (v : Vocabulary) (e : Expectancy) (offset : Nat) {c : Char}
    (hc : isBlank c = true) (text : List Char) :
    scanFrom v e offset (c :: text) = scanFrom v e (offset + c.utf8Size) text := by
  have hdrop : (c :: text).dropWhile isBlank = text.dropWhile isBlank :=
    List.dropWhile_cons_of_pos hc
  have htake : (c :: text).takeWhile isBlank = c :: text.takeWhile isBlank :=
    List.takeWhile_cons_of_pos hc
  cases h : text.dropWhile isBlank with
  | nil =>
    rw [scanFrom_end v e offset (hdrop.trans h), scanFrom_end v e _ h, htake, byteSize_cons,
      Nat.add_assoc]
  | cons d rest =>
    rw [scanFrom_cons v e offset (hdrop.trans h), scanFrom_cons v e _ h, htake, byteSize_cons,
      Nat.add_assoc]

/-- What holds of a scan that ends, of one that fails, and of one that takes a token if it holds of
the scan after it, holds of every scan. -/
theorem scanFrom_induction (v : Vocabulary) {motive : Expectancy → Nat → List Char → Prop}
    (ended : ∀ (e : Expectancy) (offset : Nat) (gap : List Char), (∀ c ∈ gap, isBlank c = true) →
      scanFrom v e offset gap =
        [.ok ⟨.endOfInput, ⟨offset + byteSize gap, offset + byteSize gap⟩⟩] → motive e offset gap)
    (failed : ∀ (e : Expectancy) (offset : Nat) (gap : List Char) (c : Char) (rest : List Char)
      (fault : ScanFault), (∀ c ∈ gap, isBlank c = true) → readLexeme v e c rest = .error fault →
      scanFrom v e offset (gap ++ c :: rest) = [.error ⟨offset + byteSize gap, fault⟩] →
      motive e offset (gap ++ c :: rest))
    (token : ∀ (e : Expectancy) (offset : Nat) (gap : List Char) (c : Char) (rest : List Char)
      (kind : TokenKind) (n start stop : Nat), (∀ c ∈ gap, isBlank c = true) → isBlank c = false →
      readLexeme v e c rest = .ok (kind, n) → start = offset + byteSize gap →
      stop = start + byteSize (c :: rest.take n) →
      scanFrom v e offset (gap ++ c :: rest) =
        .ok ⟨kind, ⟨start, stop⟩⟩ :: scanFrom v (.after kind) stop (rest.drop n) →
      motive (.after kind) stop (rest.drop n) → motive e offset (gap ++ c :: rest))
    (e : Expectancy) (offset : Nat) (text : List Char) : motive e offset text := by
  induction hn : text.length using Nat.strongRecOn generalizing e offset text with
  | ind n ih =>
    have hgap : ∀ c ∈ text.takeWhile isBlank, isBlank c = true :=
      List.all_eq_true.mp List.all_takeWhile
    have hsplit : text = text.takeWhile isBlank ++ text.dropWhile isBlank := by simp
    cases hdrop : text.dropWhile isBlank with
    | nil =>
      have hscan := scanFrom_end v e offset hdrop
      rw [hdrop, List.append_nil] at hsplit
      rw [← hsplit] at hgap hscan
      exact ended e offset text hgap hscan
    | cons c rest =>
      have hc := not_blank_of_dropWhile hdrop
      have hshorter := length_lt_of_dropWhile_eq hdrop
      have hscan := scanFrom_cons v e offset hdrop
      rw [hdrop] at hsplit
      generalize text.takeWhile isBlank = gap at hgap hsplit hscan
      subst hsplit
      cases hread : readLexeme v e c rest with
      | error fault =>
        rw [hread] at hscan
        exact failed e offset gap c rest fault hgap hread hscan
      | ok lexeme =>
        obtain ⟨kind, n⟩ := lexeme
        rw [hread] at hscan
        refine token e offset gap c rest kind n _ _ hgap hc hread rfl rfl hscan ?_
        exact ih (rest.drop n).length (by rw [List.length_drop]; omega) _ _ _ rfl

/-- A scan has its tokens just if no item is an error. -/
theorem allTokens_eq_ok_iff {steps : List (Except ScanError Token)} {ts : List Token} :
    allTokens steps = .ok ts ↔ steps = ts.map .ok := by
  induction steps generalizing ts with
  | nil => cases ts <;> simp [allTokens]
  | cons step steps ih =>
    cases step with
    | error e => cases ts <;> simp [allTokens]
    | ok t =>
      cases h : allTokens steps with
      | error e =>
        have hne : ∀ us : List Token, steps ≠ us.map .ok := by
          intro us hus
          rw [ih.mpr hus] at h
          cases h
        cases ts <;> simp [allTokens, h, Except.map, hne]
      | ok us =>
        obtain rfl := ih.mp h
        cases ts <;> simp [allTokens, h, Except.map, List.map_inj_right]

/-! What holds of everything that begins at a character holds of every token. -/

section

variable {v : Vocabulary} {P : TokenKind → Prop} (hend : P .endOfInput)
  (hbegins : ∀ {c rest kind n}, isBlank c = false → Begins v c rest kind n → P kind)

include hend hbegins

/-- What holds of each lexeme that is read holds of all tokens of a scan. -/
theorem forall_mem_scanFrom (e : Expectancy) (offset : Nat) (text : List Char) :
    ∀ t, .ok t ∈ scanFrom v e offset text → P t.kind := by
  induction e, offset, text using scanFrom_induction v with
  | ended e offset gap _ hscan =>
    intro t ht
    rw [hscan, List.mem_singleton, Except.ok.injEq] at ht
    subst ht
    exact hend
  | failed e offset gap c rest fault _ _ hscan =>
    intro t ht
    simp [hscan] at ht
  | token e offset gap c rest kind n start stop _ hc hread _ _ hscan ih =>
    intro t ht
    rw [hscan, List.mem_cons, Except.ok.injEq] at ht
    obtain rfl | ht := ht
    · exact hbegins hc (begins_of_readLexeme hread)
    · exact ih t ht

theorem forall_mem_tokens {text : String} {ts : List Token} (h : tokens v text = .ok ts) :
    ∀ t ∈ ts, P t.kind := by
  intro t ht
  have hscan : scan v text = ts.map .ok := allTokens_eq_ok_iff.mp h
  refine forall_mem_scanFrom hend hbegins .field 0 text.toList t ?_
  change .ok t ∈ scan v text
  rw [hscan]
  exact List.mem_map_of_mem ht

end

theorem legible_of_mem_tokens {v : Vocabulary} {text : String} {ts : List Token}
    (h : tokens v text = .ok ts) : ∀ t ∈ ts, t.kind.Legible :=
  forall_mem_tokens trivial Begins.legible h

/-! Runs of the scan. -/

/-- From `text` the scan takes tokens of these kinds, and then it goes on with `text'`. -/
def Scans (v : Vocabulary) (e : Expectancy) (text : List Char) (kinds : List TokenKind)
    (e' : Expectancy) (text' : List Char) : Prop :=
  ∀ offset, ∃ (ts : List Token) (offset' : Nat), ts.map Token.kind = kinds ∧
    scanFrom v e offset text = ts.map .ok ++ scanFrom v e' offset' text'

namespace Scans

variable {v : Vocabulary} {e e' e'' : Expectancy} {text text' text'' : List Char}

theorem refl (v : Vocabulary) (e : Expectancy) (text : List Char) : Scans v e text [] e text :=
  fun offset => ⟨[], offset, rfl, rfl⟩

theorem trans {kinds kinds' : List TokenKind} (h : Scans v e text kinds e' text')
    (h' : Scans v e' text' kinds' e'' text'') : Scans v e text (kinds ++ kinds') e'' text'' := by
  intro offset
  obtain ⟨ts, offset', rfl, hts⟩ := h offset
  obtain ⟨us, offset'', rfl, hus⟩ := h' offset'
  exact ⟨ts ++ us, offset'', by rw [List.map_append],
    by rw [hts, hus, List.map_append, List.append_assoc]⟩

theorem blank {kinds : List TokenKind} (h : Scans v e text kinds e' text') :
    Scans v e (' ' :: text) kinds e' text' := by
  intro offset
  rw [scanFrom_blank v e offset rfl]
  exact h _

/-- Blanks in front are passed over, whatever is expected. -/
theorem blanks {gap : List Char} (hgap : ∀ c ∈ gap, isBlank c = true) {kinds : List TokenKind}
    (h : Scans v e text kinds e' text') : Scans v e (gap ++ text) kinds e' text' := by
  induction gap with
  | nil => exact h
  | cons c gap ih =>
    obtain ⟨hc, hgap⟩ := List.forall_mem_cons.mp hgap
    intro offset
    rw [List.cons_append, scanFrom_blank v e offset hc]
    exact ih hgap _

theorem lexeme {c : Char} {cs rest : List Char} {kind : TokenKind} (hc : isBlank c = false)
    (h : readLexeme v e c (cs ++ rest) = .ok (kind, cs.length)) :
    Scans v e (c :: cs ++ rest) [kind] (.after kind) rest := by
  intro offset
  have hdrop : (c :: (cs ++ rest)).dropWhile isBlank = c :: (cs ++ rest) :=
    List.dropWhile_cons_of_neg (by simp [hc])
  rw [List.cons_append, scanFrom_cons v e offset hdrop, h]
  simp only [List.drop_left]
  exact ⟨[_], _, rfl, rfl⟩

theorem punctuation {c : Char} {kind : TokenKind} (hkind : punctuation? c = some kind)
    (rest : List Char) (hop : expectedLexeme? v e (c :: rest) = none) :
    Scans v e (c :: rest) [kind] (.after kind) rest := by
  have hread : readLexeme v e c ([] ++ rest) = .ok (kind, ([] : List Char).length) := by
    rw [List.nil_append, readLexeme, hop, hkind]
    rfl
  exact lexeme (not_blank_of_reserved (reserved_of_punctuation hkind)) hread

/-- A text that reads back is one token before any separator. -/
theorem readsBack {kind : TokenKind} {cs rest : List Char} (h : ReadsBack kind cs)
    (he : e = .field ∨ e = .operand) (hrest : Separated rest) :
    Scans v e (cs ++ rest) [kind] (.after kind) rest := by
  obtain ⟨c, ds, rfl, hc, hread⟩ := h
  exact lexeme hc (hread v e rest he hrest)

end Scans

/-- A run up to the end of a text gives all tokens of the text. -/
theorem tokens_of_scans {v : Vocabulary} {text : String} {kinds : List TokenKind} {e : Expectancy}
    (h : Scans v .field text.toList kinds e []) :
    ∃ ts finish, tokens v text = .ok (ts ++ [⟨.endOfInput, finish⟩]) ∧
      ts.map Token.kind = kinds := by
  obtain ⟨ts, offset, hkinds, hscan⟩ := h 0
  rw [scanFrom_end v e offset rfl] at hscan
  refine ⟨ts, ⟨offset, offset⟩, allTokens_eq_ok_iff.mpr ?_, hkinds⟩
  rw [List.map_append]
  exact hscan

/-! What is expected and what the grammar allows. -/

/-- The kinds of tokens that the grammar has a use for where this is expected. -/
inductive Expectancy.Admits : Expectancy → TokenKind → Prop
  | field (path : String) : Admits .field (.field path)
  | openParen : Admits .field .openParen
  | comparison (op : CompareOp) (ignoreCase : Bool) : Admits .comparison (.comparison op ignoreCase)
  | literal (kind : LiteralKind) (text : String) : Admits .operand (.literal kind text)
  | openBracket : Admits .operand .openBracket
  | noLiterals : Admits .operand .closeBracket
  | logical (op : LogicalOp) : Admits .connective (.logical op)
  | closeParen : Admits .connective .closeParen
  | closeBracket : Admits .connective .closeBracket
  | comma : Admits .connective .comma

inductive Expectancy.Leads : Expectancy → List TokenKind → Expectancy → Prop
  | nil (e : Expectancy) : Leads e [] e
  | cons {e e' : Expectancy} {kind : TokenKind} {kinds : List TokenKind} :
    e.Admits kind → Leads (.after kind) kinds e' → Leads e (kind :: kinds) e'

theorem Expectancy.Leads.append {e e' e'' : Expectancy} {kinds kinds' : List TokenKind}
    (h : e.Leads kinds e') (h' : e'.Leads kinds' e'') : e.Leads (kinds ++ kinds') e'' := by
  induction h with
  | nil => exact h'
  | cons hkind _ ih => exact .cons hkind (ih h')

/-- Wherever tokens are split, the second part is expected after the first. -/
theorem Expectancy.Leads.split {e e' : Expectancy} {kinds kinds' : List TokenKind}
    (h : e.Leads (kinds ++ kinds') e') : ∃ mid, e.Leads kinds mid ∧ mid.Leads kinds' e' := by
  induction kinds generalizing e with
  | nil => exact ⟨e, .nil e, h⟩
  | cons kind kinds ih =>
    cases h with
    | cons hkind hrest =>
      obtain ⟨mid, hkinds, hkinds'⟩ := ih hrest
      exact ⟨mid, .cons hkind hkinds, hkinds'⟩

theorem Literal.kinds_lead (l : Literal) (ls : List Literal) :
    Expectancy.operand.Leads (((l :: ls).map Literal.tokenKind).intersperse .comma)
      .connective := by
  induction ls generalizing l with
  | nil => exact .cons (.literal l.kind l.text) (.nil _)
  | cons m ms ih => exact .cons (.literal l.kind l.text) (.cons .comma (ih m))

/-- An operand is expected after an operator, and a connective after it. -/
theorem Operand.kinds_lead (o : Operand) : Expectancy.operand.Leads o.kinds .connective := by
  cases o with
  | single l => exact .cons (.literal l.kind l.text) (.nil _)
  | list ls =>
    cases ls with
    | nil => exact .cons .openBracket (.cons .noLiterals (.nil _))
    | cons l ls =>
      exact .cons .openBracket ((Literal.kinds_lead l ls).append (.cons .closeBracket (.nil _)))

/-- Every token of a condition stands where its kind is expected. -/
theorem Condition.kinds_lead (n : Condition) : Expectancy.field.Leads n.kinds .connective := by
  induction n with
  | comparison c =>
    exact .cons (.field c.field) (.cons (.comparison c.op c.ignoreCase) c.operand.kinds_lead)
  | and l r hl hr => exact hl.append (.cons (.logical .and) hr)
  | or l r hl hr => exact hl.append (.cons (.logical .or) hr)
  | group n ih => exact .cons .openParen (ih.append (.cons .closeParen (.nil _)))

/-! Operators that are read back. -/

/-- Before a blank, the text of a comparison operator is read as this operator. -/
def Vocabulary.ReadsComparison (v : Vocabulary) (s : Spelling) (op : CompareOp)
    (ignoreCase : Bool) : Prop :=
  ∃ c cs, (s.comparisonText op ignoreCase).toList = c :: cs ∧ isBlank c = false ∧
    ∀ rest, v.matchComparison (c :: cs ++ ' ' :: rest) = some ⟨op, ignoreCase, cs.length + 1⟩

/-- Before a blank, the text of a connective is read as this connective. No bracket, parenthesis or
comma is taken for one. -/
structure Vocabulary.ReadsConnectives (v : Vocabulary) (s : Spelling) : Prop where
  word : ∀ op, ∃ c cs, (s.logical op).toList = c :: cs ∧ isBlank c = false ∧
    ∀ rest, v.matchLogical (c :: cs ++ ' ' :: rest) = some (op, cs.length + 1)
  reserved : ∀ c, isReserved c = true → ∀ rest, v.matchLogical (c :: rest) = none

section Written

variable {v : Vocabulary} {s : Spelling}

theorem scans_comparison {op : CompareOp} {ignoreCase : Bool}
    (h : v.ReadsComparison s op ignoreCase) (rest : List Char) :
    Scans v .comparison ((s.comparisonText op ignoreCase).toList ++ ' ' :: rest)
      [.comparison op ignoreCase] .operand (' ' :: rest) := by
  obtain ⟨c, cs, hcs, hc, hmatch⟩ := h
  rw [hcs]
  refine Scans.lexeme hc ?_
  have hop : expectedLexeme? v .comparison (c :: (cs ++ ' ' :: rest)) =
      some (.comparison op ignoreCase, cs.length) := by
    have := hmatch rest
    simp only [List.cons_append] at this
    simp [expectedLexeme?, comparisonLexeme?, this]
  rw [readLexeme, hop]

theorem scans_logical (h : v.ReadsConnectives s) (op : LogicalOp) (rest : List Char) :
    Scans v .connective ((s.logical op).toList ++ ' ' :: rest) [.logical op] .field
      (' ' :: rest) := by
  obtain ⟨c, cs, hcs, hc, hmatch⟩ := h.word op
  rw [hcs]
  refine Scans.lexeme hc ?_
  have hop : expectedLexeme? v .connective (c :: (cs ++ ' ' :: rest)) =
      some (.logical op, cs.length) := by
    have := hmatch rest
    simp only [List.cons_append] at this
    simp [expectedLexeme?, logicalLexeme?, this]
  rw [readLexeme, hop]

/-- After a literal or a group, punctuation is read as such. -/
theorem scans_closing (h : v.ReadsConnectives s) {c : Char} {kind : TokenKind}
    (hkind : punctuation? c = some kind) (rest : List Char) :
    Scans v .connective (c :: rest) [kind] (.after kind) rest := by
  have hlogical := h.reserved c (reserved_of_punctuation hkind) rest
  refine Scans.punctuation hkind rest ?_
  simp [expectedLexeme?, logicalLexeme?, hlogical]

theorem scans_literal {l : Literal} (h : l.tokenKind.Legible) {rest : List Char}
    (hrest : Separated rest) :
    Scans v .operand (l.write.toList ++ rest) [l.tokenKind] .connective rest :=
  Scans.readsBack h (.inr rfl) hrest

theorem scans_field {path : String} (h : (TokenKind.field path).Legible) {rest : List Char}
    (hrest : Separated rest) :
    Scans v .field (path.toList ++ rest) [.field path] .comparison rest :=
  Scans.readsBack h (.inl rfl) hrest

/-- A written list is scanned as its literals with commas between them. -/
theorem scans_literals (h : v.ReadsConnectives s) {l : Literal} {ls : List Literal}
    (hls : ∀ m ∈ l :: ls, m.tokenKind.Legible) {rest : List Char} (hrest : Separated rest) :
    Scans v .operand ((", ".intercalate ((l :: ls).map Literal.write)).toList ++ rest)
      (((l :: ls).map Literal.tokenKind).intersperse .comma) .connective rest := by
  induction ls generalizing l with
  | nil => simpa using scans_literal (hls l (by simp)) hrest
  | cons m ms ih =>
    have htail := ih (l := m) fun x hx => hls x (List.mem_cons_of_mem l hx)
    have hcomma := (scans_closing h (c := ',') rfl _).trans htail.blank
    have hhead : ∀ tail, Scans v .operand (l.write.toList ++ ',' :: tail) [l.tokenKind] .connective
        (',' :: tail) := fun tail =>
      scans_literal (hls l List.mem_cons_self) (separated_reserved rfl tail)
    simpa [String.intercalate_cons_cons, List.append_assoc] using (hhead _).trans hcomma

theorem mem_intersperse_of_mem {α : Type} {a : α} {xs : List α} (h : a ∈ xs) (sep : α) :
    a ∈ xs.intersperse sep := by
  induction xs with
  | nil => cases h
  | cons x xs ih =>
    cases xs with
    | nil => exact h
    | cons y ys =>
      obtain rfl | h := List.mem_cons.mp h
      · simp
      · simp [ih h]

/-- A written operand is scanned as its own tokens. -/
theorem scans_operand (h : v.ReadsConnectives s) (o : Operand) (ho : ∀ k ∈ o.kinds, k.Legible)
    {rest : List Char} (hrest : Separated rest) :
    Scans v .operand (o.write.toList ++ rest) o.kinds .connective rest := by
  cases o with
  | single l => exact scans_literal (ho _ (by simp [Operand.kinds])) hrest
  | list ls =>
    have hopen : ∀ tail, Scans v .operand ('[' :: tail) [.openBracket] .operand tail :=
      fun tail => Scans.punctuation rfl tail rfl
    cases ls with
    | nil =>
      have hclose : Scans v .operand (']' :: rest) [.closeBracket] .connective rest :=
        Scans.punctuation rfl rest rfl
      simpa [Operand.write, Operand.kinds] using (hopen _).trans hclose
    | cons l ls =>
      have hls : ∀ m ∈ l :: ls, m.tokenKind.Legible := by
        intro m hm
        have hmem := mem_intersperse_of_mem (List.mem_map_of_mem hm (f := Literal.tokenKind)) .comma
        exact ho _ (List.mem_cons_of_mem _ (List.mem_append_left _ hmem))
      have hclose : Scans v .connective (']' :: rest) [.closeBracket] .connective rest :=
        scans_closing h rfl rest
      have hitems := scans_literals h hls (separated_reserved (c := ']') rfl rest)
      simpa [Operand.write, Operand.kinds, List.append_assoc] using
        (hopen _).trans (hitems.trans hclose)

/-- A written comparison is scanned as its own tokens. -/
theorem scans_written_comparison (h : v.ReadsConnectives s) (c : Comparison)
    (hop : v.ReadsComparison s c.op c.ignoreCase) (hc : ∀ k ∈ c.kinds, k.Legible)
    {rest : List Char} (hrest : Separated rest) :
    Scans v .field ((c.write s).toList ++ rest) c.kinds .connective rest := by
  have hfield : ∀ tail, Scans v .field (c.field.toList ++ ' ' :: tail) [.field c.field] .comparison
      (' ' :: tail) :=
    fun tail => scans_field (hc _ (by simp [Comparison.kinds])) (separated_blank tail)
  have hoperand := scans_operand h c.operand
    (fun k hk => hc k (by simp [Comparison.kinds, hk])) hrest
  have hcompare := (scans_comparison hop _).trans hoperand.blank
  simpa [Comparison.write, Comparison.kinds, List.append_assoc] using
    (hfield _).trans hcompare.blank

/-- Two written conditions with a connective between them are scanned as their own tokens and the
one for it. -/
theorem scans_joined (h : v.ReadsConnectives s) (op : LogicalOp) {l r rest : List Char}
    {kinds kinds' : List TokenKind}
    (hl : ∀ tail, Separated tail → Scans v .field (l ++ tail) kinds .connective tail)
    (hr : Scans v .field (r ++ rest) kinds' .connective rest) :
    Scans v .field (l ++ ' ' :: ((s.logical op).toList ++ ' ' :: (r ++ rest)))
      (kinds ++ .logical op :: kinds') .connective rest := by
  have hright := (scans_logical h op _).trans hr.blank
  exact (hl _ (separated_blank _)).trans hright.blank

/-- A condition that is written legibly is scanned to its tokens. The rest is another one for each
part: a connective follows a left operand, and a parenthesis the inside of a group. -/
theorem scans_condition (h : v.ReadsConnectives s) (n : Condition)
    (hop : ∀ c ∈ n.comparisons, v.ReadsComparison s c.op c.ignoreCase)
    (hn : ∀ k ∈ n.kinds, k.Legible) {rest : List Char} (hrest : Separated rest) :
    Scans v .field ((n.write s).toList ++ rest) n.kinds .connective rest := by
  induction n generalizing rest with
  | comparison c =>
    exact scans_written_comparison h c (hop c (by simp [Condition.comparisons])) hn hrest
  | and l r ihl ihr | or l r ihl ihr =>
    simp only [Condition.comparisons, List.mem_append] at hop
    simp only [Condition.kinds, List.mem_append, List.mem_cons] at hn
    have hleft : ∀ tail, Separated tail → Scans v .field ((l.write s).toList ++ tail) l.kinds
        .connective tail :=
      fun tail htail => ihl (fun c hc => hop c (.inl hc)) (fun k hk => hn k (.inl hk)) htail
    have hright := ihr (fun c hc => hop c (.inr hc)) (fun k hk => hn k (.inr (.inr hk))) hrest
    simpa [Condition.write, Condition.kinds, List.append_assoc] using
      scans_joined h _ hleft hright
  | group n ih =>
    have hopen : ∀ tail, Scans v .field ('(' :: tail) [.openParen] .field tail :=
      fun tail => Scans.punctuation rfl tail rfl
    have hclose : Scans v .connective (')' :: rest) [.closeParen] .connective rest :=
      scans_closing h rfl rest
    have hinner := ih hop (fun k hk => hn k (by simp [Condition.kinds, hk]))
      (separated_reserved (c := ')') rfl rest)
    simpa [Condition.write, Condition.kinds, List.append_assoc] using
      (hopen _).trans (hinner.trans hclose)

/-- Nothing but the end comes after the tokens of a condition that is written alone. -/
theorem tokens_write (h : v.ReadsConnectives s) (n : Condition)
    (hop : ∀ c ∈ n.comparisons, v.ReadsComparison s c.op c.ignoreCase)
    (hn : ∀ k ∈ n.kinds, k.Legible) :
    ∃ ts finish, tokens v (n.write s) = .ok (ts ++ [⟨.endOfInput, finish⟩]) ∧
      ts.map Token.kind = n.kinds := by
  have hscans := scans_condition h n hop hn separated_nil
  rw [List.append_nil] at hscans
  exact tokens_of_scans hscans

end Written

end RecordFilter
