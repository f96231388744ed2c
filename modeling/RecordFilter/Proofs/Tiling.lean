import Mathlib.Control.Monad.Basic
import RecordFilter.Proofs.Slices

/-!
Scans tile their text. The tokens of a scan lie one after the other, each on the piece of text that
spells it, with nothing but blanks between them, up to the end of the text or to the character at
which the scan fails. A scanner that is asked for one item at a time gives the same items and moves
on with each of them.
-/
namespace RecordFilter

/-- From byte `low` to byte `high` there is nothing but these tokens and blanks around them. -/
inductive Tiles (v : Vocabulary) (text : List Char) : Nat → List Token → Nat → Prop
  | gap {low high : Nat} {gap : List Char} : Span.Covers ⟨low, high⟩ text gap →
    (∀ c ∈ gap, isBlank c = true) → Tiles v text low [] high
  | token {low high : Nat} {t : Token} {ts : List Token} {gap piece : List Char} :
    Span.Covers ⟨low, t.span.start⟩ text gap → (∀ c ∈ gap, isBlank c = true) →
    t.span.Covers text piece → piece ≠ [] → t.kind.SpelledBy v piece →
    Tiles v text t.span.stop ts high → Tiles v text low (t :: ts) high

/-- The steps of a scan from byte `low` on: tokens up to the end of the text, and then the end, or
tokens up to a character inside the text, and then the error there. -/
inductive TiledBy (v : Vocabulary) (text : List Char) (low : Nat) :
    List (Except ScanError Token) → Prop
  | ended {ts : List Token} : Tiles v text low ts (byteSize text) →
    TiledBy v text low
      (ts.map .ok ++ [.ok ⟨.endOfInput, ⟨byteSize text, byteSize text⟩⟩])
  | failed {ts : List Token} {before rest : List Char} {c : Char} {fault : ScanFault} :
    text = before ++ c :: rest → Tiles v text low ts (byteSize before) → Balks c rest fault →
    TiledBy v text low (ts.map .ok ++ [.error ⟨byteSize before, fault⟩])

theorem TiledBy.cons {v : Vocabulary} {text : List Char} {low : Nat} {t : Token}
    {steps : List (Except ScanError Token)} {gap piece : List Char}
    (hgap : Span.Covers ⟨low, t.span.start⟩ text gap) (hblank : ∀ c ∈ gap, isBlank c = true)
    (hpiece : t.span.Covers text piece) (hne : piece ≠ []) (hkind : t.kind.SpelledBy v piece)
    (h : TiledBy v text t.span.stop steps) : TiledBy v text low (.ok t :: steps) := by
  cases h with
  | ended hts => exact .ended (.token hgap hblank hpiece hne hkind hts)
  | failed htext hts hbalks => exact .failed htext (.token hgap hblank hpiece hne hkind hts) hbalks

/-- What is left of the text is tiled by what is left of the scan. -/
theorem tiledBy_scanFrom (v : CheckedVocabulary) (e : Expectancy) (offset : Nat)
    (text : List Char) : ∀ before, byteSize before = offset →
      TiledBy v (before ++ text) offset (scanFrom v e offset text) := by
  induction e, offset, text using scanFrom_induction v with
  | ended e offset gap hgap hscan =>
    rintro before rfl
    have htiles : Tiles v (before ++ gap) (byteSize before) []
        (byteSize (before ++ gap)) := .gap ⟨before, [], by simp, rfl⟩ hgap
    rw [hscan, ← byteSize_append]
    exact .ended htiles
  | failed e offset gap c rest fault hgap hread hscan =>
    rintro before rfl
    have htiles : Tiles v (before ++ (gap ++ c :: rest)) (byteSize before) []
        (byteSize (before ++ gap)) := .gap ⟨before, c :: rest, by simp, rfl⟩ hgap
    rw [hscan, ← byteSize_append]
    exact .failed (by simp) htiles (balks_of_readLexeme hread)
  | token e offset gap c rest kind n start stop hgap hc hread hstart hstop hscan ih =>
    rintro before rfl
    obtain ⟨hspelled, _⟩ := spelledBy_of_begins v (begins_of_readLexeme hread)
    have hwhole : before ++ (gap ++ c :: rest) =
        before ++ gap ++ c :: rest.take n ++ rest.drop n := by simp
    have hcovers : Span.Covers ⟨byteSize before, start⟩ (before ++ (gap ++ c :: rest)) gap :=
      ⟨before, c :: rest, by simp, by simp [hstart]⟩
    have hpiece : Span.Covers ⟨start, stop⟩ (before ++ (gap ++ c :: rest)) (c :: rest.take n) :=
      ⟨before ++ gap, rest.drop n, hwhole, by simp [hstart, hstop, Nat.add_assoc]⟩
    have hrest := ih (before ++ gap ++ c :: rest.take n) (by simp [hstart, hstop, Nat.add_assoc])
    rw [← hwhole] at hrest
    rw [hscan]
    exact .cons hcovers hgap hpiece (List.cons_ne_nil _ _) hspelled hrest

/-! One item at a time. -/

namespace Scanner

def after (v : Vocabulary) (s : Scanner) : Nat → Scanner
  | 0 => s
  | k + 1 => (s.next v).2.after v k

/-- What a scanner gives when it has been asked for an item `k` times before. -/
def item (v : Vocabulary) (s : Scanner) (k : Nat) : Option (Except ScanError Token) :=
  ((s.after v k).next v).1

section

variable {v : Vocabulary} {s : Scanner}

theorem after_succ (v : Vocabulary) (s : Scanner) (k : Nat) :
    s.after v (k + 1) = ((s.after v k).next v).2 := by
  induction k generalizing s with
  | zero => rfl
  | succ k ih => exact ih (s.next v).2

/-- A scanner that has not finished gives an item, and with a token it moves on in the text. -/
theorem next_unfinished (v : Vocabulary) (h : s.finished = false) :
    ∃ item s', s.next v = (some item, s') ∧
      ∀ t, item = .ok t → t.kind ≠ .endOfInput → s.offset < s'.offset := by
  cases hdrop : s.rest.dropWhile isBlank with
  | nil =>
    refine ⟨_, _, next_ended v h hdrop, ?_⟩
    rintro t heq ht
    cases heq
    exact absurd rfl ht
  | cons c rest =>
    cases hread : readLexeme v s.expected c rest with
    | error fault => exact ⟨_, _, next_failed h hdrop hread, nofun⟩
    | ok lexeme =>
      refine ⟨_, _, next_token h hdrop hread, fun t _ _ => ?_⟩
      have hpos := Char.utf8Size_pos c
      simp only [byteSize_cons]
      omega

/-- A scanner gives the steps of the scan in their order, and nothing ever after. -/
theorem item_eq (v : Vocabulary) (s : Scanner) (k : Nat) : s.item v k = (s.steps v)[k]? := by
  induction k generalizing s with
  | zero =>
    cases h : s.finished with
    | true => rw [item, after, next_finished v h, steps_finished v h, List.getElem?_nil]
    | false =>
      obtain ⟨first, s', hnext, _⟩ := next_unfinished v h
      rw [item, after, hnext, steps_cons hnext, List.getElem?_cons_zero]
  | succ k ih =>
    have hlater : s.item v (k + 1) = (s.next v).2.item v k := rfl
    rw [hlater, ih]
    cases h : s.finished with
    | true => rw [next_finished v h, steps_finished v h, List.getElem?_nil, List.getElem?_nil]
    | false =>
      obtain ⟨first, s', hnext, _⟩ := next_unfinished v h
      rw [hnext, steps_cons hnext, List.getElem?_cons_succ]

/-- It is further in the text after each token. -/
theorem offset_lt_after {k : Nat} {t : Token} (h : s.item v k = some (.ok t))
    (ht : t.kind ≠ .endOfInput) : (s.after v k).offset < (s.after v (k + 1)).offset := by
  have hfinished : (s.after v k).finished = false := by
    cases hs : (s.after v k).finished with
    | false => rfl
    | true =>
      rw [item, next_finished v hs] at h
      cases h
  obtain ⟨item, s', hnext, hmoves⟩ := next_unfinished v hfinished
  rw [Scanner.item, hnext] at h
  rw [after_succ, hnext]
  exact hmoves t (Option.some.inj h) ht

end

end Scanner

/-- The end of the input is no piece of a text. -/
theorem Tiles.kind_ne_endOfInput {v : Vocabulary} {text : List Char} {low high : Nat}
    {ts : List Token} (h : Tiles v text low ts high) : ∀ t ∈ ts, t.kind ≠ .endOfInput := by
  induction h with
  | gap => nofun
  | @token low high t ts gap piece hgap hblank hpiece hne hkind hts ih =>
    refine List.forall_mem_cons.mpr ⟨fun hend => ?_, ih⟩
    rw [hend] at hkind
    exact hkind

/-- Only the last step of a scan can be the end or an error. -/
theorem TiledBy.exists_token {v : Vocabulary} {text : List Char} {low : Nat}
    {steps : List (Except ScanError Token)} (h : TiledBy v text low steps) {k : Nat}
    (hk : k + 1 < steps.length) : ∃ t, steps[k]? = some (.ok t) ∧ t.kind ≠ .endOfInput := by
  have hinit : ∀ ts : List Token, (∀ t ∈ ts, t.kind ≠ .endOfInput) →
      ∀ last : Except ScanError Token, k + 1 < (ts.map Except.ok ++ [last]).length →
        ∃ t, (ts.map Except.ok ++ [last])[k]? = some (.ok t) ∧ t.kind ≠ .endOfInput := by
    intro ts hts last hlength
    simp only [List.length_append, List.length_map, List.length_singleton] at hlength
    have hlt : k < ts.length := by omega
    refine ⟨ts[k], ?_, hts _ (List.getElem_mem hlt)⟩
    rw [List.getElem?_append_left (by rwa [List.length_map]), List.getElem?_map,
      List.getElem?_eq_getElem hlt]
    rfl
  cases h with
  | ended hts => exact hinit _ hts.kind_ne_endOfInput _ hk
  | failed _ hts _ => exact hinit _ hts.kind_ne_endOfInput _ hk

/-- The scan of a text ends, with the end of the input or with an error, and tiles the text up to
there. A scanner gives its steps one by one and nothing after them, and each of them but the last
takes it further into the text. -/
theorem scan_tiles (v : CheckedVocabulary) (text : String) :
    TiledBy v text.toList 0 (scan v text) ∧
    (∀ k, (Scanner.ofText text).item v k = (scan v text)[k]?) ∧
    ∀ k, k + 1 < (scan v text).length →
      ((Scanner.ofText text).after v k).offset < ((Scanner.ofText text).after v (k + 1)).offset := by
  have htiled := tiledBy_scanFrom v .field 0 text.toList [] rfl
  have hitem : ∀ k, (Scanner.ofText text).item v k = (scan v text)[k]? :=
    (Scanner.ofText text).item_eq v
  refine ⟨htiled, hitem, fun k hk => ?_⟩
  obtain ⟨t, ht, hkind⟩ := htiled.exists_token hk
  exact Scanner.offset_lt_after ((hitem k).trans ht) hkind

/-- A wide blank, a word with a letter outside of ASCII, a suffix, a plus sign, and a character that
starts nothing. -/
theorem scan_tiles_up_to_error :
    let s : Spelling := { comparison := fun
      | .equals => "öq"
      | op => op.symbol }
    let text := "\u3000A öQ*+1 ;"
    let steps : List (Except ScanError Token) := [
      .ok ⟨.field "A", ⟨3, 4⟩⟩, .ok ⟨.comparison .equals true, ⟨5, 9⟩⟩,
      .ok ⟨.literal .number "1", ⟨9, 11⟩⟩, .error ⟨12, .unexpectedChar ';'⟩]
    ∃ v, Vocabulary.ofSpelling? s = .ok v ∧ scan v text = steps ∧ TiledBy v text.toList 0 steps := by
  intro s text steps
  have hok : (Vocabulary.ofSpelling? s).isOk = true := by decide +kernel
  obtain ⟨v, hv⟩ := exists_ok_of_isOk hok
  have hsteps : scan v text = steps := by
    rw [Vocabulary.of_ofSpelling? hv, Vocabulary.ofSpelling_eq_inserted]
    decide +kernel
  exact ⟨v, hv, hsteps, hsteps ▸ (scan_tiles v text).1⟩

end RecordFilter
