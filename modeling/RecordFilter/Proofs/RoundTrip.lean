import RecordFilter.Proofs.Lookup
import RecordFilter.Proofs.Reading
import RecordFilter.Proofs.Spans

/-!
Writing a condition and reading it again. The text of a condition that was read from some text
spells the same condition, whatever words the first text was spelled with and whatever words of a
checked spelling the second one is written with.
-/
namespace RecordFilter

/-- A condition that was read is legible, and it is spelled by tokens. -/
theorem Condition.exists_derives_of_ofText {v : Vocabulary} {text : String} {n : Condition}
    (h : Condition.ofText v text = .ok n) :
    ∃ ts, Derives (.whole .expression) ts n ∧ n.height ≤ maxHeight ∧
      ∀ k ∈ n.kinds, k.Legible := by
  obtain ⟨us, hus, hread⟩ := ofText_eq_ok_iff.mp h
  obtain ⟨ts, rest, rfl, _, hts, hheight⟩ := derives_of_ofTokens hread
  refine ⟨ts, hts, hheight, fun k hk => ?_⟩
  rw [← hts.kinds_eq] at hk
  obtain ⟨t, ht, rfl⟩ := List.mem_map.mp hk
  exact legible_of_mem_tokens hus t (List.mem_append_left rest ht)

/-- What was read once is read again from any text that it is written as, provided that the
operators in it are read back. -/
theorem Condition.ofText_write {v v' : Vocabulary} {s : Spelling} {text : String} {n : Condition}
    (h : Condition.ofText v text = .ok n) (hs : v'.ReadsConnectives s)
    (hop : ∀ c ∈ n.comparisons, v'.ReadsComparison s c.op c.ignoreCase) :
    ∃ m, Condition.ofText v' (n.write s) = .ok m ∧ m.bare = n.bare := by
  obtain ⟨ts, hts, hheight, hlegible⟩ := exists_derives_of_ofText h
  obtain ⟨us, finish, hus, hkinds⟩ := tokens_write hs n hop hlegible
  obtain ⟨m, hm, hbare⟩ := hts.respell (hkinds.trans hts.kinds_eq.symm) rfl
  have hend : Reader.atEnd [⟨.endOfInput, finish⟩] = true := rfl
  refine ⟨m, ofText_eq_ok_iff.mpr ⟨_, hus, ?_⟩, hbare⟩
  obtain ⟨_, hok⟩ | ⟨hhigh, _⟩ := ofTokens_of_derives hm hend
  · exact hok
  · rw [height_eq_of_bare_eq hbare] at hhigh
    omega

theorem readsComparison_standard (op : CompareOp) (ignoreCase : Bool) :
    Vocabulary.standard.ReadsComparison .standard op ignoreCase := by
  have hfound : Vocabulary.standard.matchComparison
      (Spelling.standard.comparisonText op ignoreCase).toList =
        some ⟨op, ignoreCase, (Spelling.standard.comparisonText op ignoreCase).length⟩ := by
    rw [Vocabulary.standard_eq_inserted]
    cases ignoreCase <;> cases op <;> decide
  rw [← CheckedVocabulary.spelling_standard] at hfound ⊢
  exact CheckedVocabulary.standard.readsComparison_of_found hfound

theorem readsConnectives_standard : Vocabulary.standard.ReadsConnectives .standard := by
  rw [← CheckedVocabulary.spelling_standard]
  exact CheckedVocabulary.standard.readsConnectives

/-- Whatever a text is spelled with, its condition is read again from its usual text, up to spans,
and is written as the same text again. -/
theorem Condition.ofText_text {v : Vocabulary} {text : String} {n : Condition}
    (h : Condition.ofText v text = .ok n) :
    ∃ m, Condition.ofText .standard n.text = .ok m ∧ m.bare = n.bare ∧ m.text = n.text := by
  obtain ⟨m, hm, hbare⟩ := ofText_write h readsConnectives_standard
    fun c _ => readsComparison_standard c.op c.ignoreCase
  exact ⟨m, hm, hbare, write_eq_of_bare_eq hbare .standard⟩

/-- Words in place of operators, letters of either case, a plus sign, an escaped quote. -/
theorem Condition.ofText_text_of_words :
    let words : Spelling := {
      comparison := fun
        | .equals => "is"
        | .isIn => "in"
        | op => op.symbol
      logical := fun
        | .and => "and"
        | .or => "or" }
    let usual := "Name ==* \"a\\\"b\" && (Price >= 5.0 || Days ^^ [null, 2024-01-31])"
    ∃ n m,
      Condition.ofText (.ofSpelling words)
        "Name IS*\"a\\\"b\" And(Price >= +5.0 or Days in [null,2024-01-31])" = .ok n ∧
      Condition.ofText .standard usual = .ok m ∧ m.bare = n.bare ∧ m.text = usual := by
  intro words usual
  obtain ⟨n, hn, htext⟩ := exists_ofText_eq words
    "Name IS*\"a\\\"b\" And(Price >= +5.0 or Days in [null,2024-01-31])" Condition.text usual
    (by decide +kernel)
  obtain ⟨m, hm, hbare, hsame⟩ := ofText_text hn
  rw [htext] at hm hsame
  exact ⟨n, m, hn, hm, hbare, hsame⟩

/-- The same settings with the usual words. -/
def Configuration.usual (configuration : Configuration) : Configuration where
  settings := { configuration.settings with spelling := .standard }
  vocabulary := .standard
  spelled := CheckedVocabulary.spelling_standard

theorem Condition.ofText_respelled_of_reads {configuration : Configuration} {v : Vocabulary}
    {text : String} {n : Condition} (h : Condition.ofText v text = .ok n)
    (hop : ∀ c ∈ n.comparisons, configuration.vocabulary.ReadsComparison
      configuration.vocabulary.spelling c.op c.ignoreCase) :
    let respelled := n.write configuration.vocabulary.spelling
    (∃ m, Condition.ofText configuration.vocabulary respelled = .ok m ∧ m.bare = n.bare) ∧
    ∀ shape p, Predicate.ofText configuration shape respelled = .ok p ↔
      Predicate.ofText configuration.usual shape n.text = .ok p := by
  intro respelled
  obtain ⟨m, hm, hbare⟩ := ofText_write h configuration.vocabulary.readsConnectives hop
  refine ⟨⟨m, hm, hbare⟩, fun shape p => ?_⟩
  obtain ⟨usual, husual, hbare'⟩ := ofText_write h readsConnectives_standard
    fun c _ => readsComparison_standard c.op c.ignoreCase
  change Condition.ofText configuration.usual.vocabulary n.text = .ok usual at husual
  simp only [Predicate.ofText_eq_ok_iff, respelled, hm, husual, Except.ok.injEq, exists_eq_left']
  exact compile_eq_ok_of_bare_eq (hbare.trans hbare'.symm) _ shape p

/-- A spelling may be changed for any other that passes the checks: where no comparison ignores
case, the text with the new words is read as the same condition, up to spans, and it compiles to the
same predicates as the usual text. -/
theorem Condition.ofText_respelled (configuration : Configuration) {v : Vocabulary} {text : String}
    {n : Condition} (h : Condition.ofText v text = .ok n)
    (hcase : ∀ c ∈ n.comparisons, c.ignoreCase = false) :
    let respelled := n.write configuration.vocabulary.spelling
    (∃ m, Condition.ofText configuration.vocabulary respelled = .ok m ∧ m.bare = n.bare) ∧
    ∀ shape p, Predicate.ofText configuration shape respelled = .ok p ↔
      Predicate.ofText configuration.usual shape n.text = .ok p := by
  refine ofText_respelled_of_reads h fun c hc => ?_
  rw [hcase c hc]
  exact configuration.vocabulary.readsComparison c.op

/-- Numbers for connectives and the beginnings of a keyword for comparisons. -/
theorem Condition.ofText_respelled_as_literals :
    let settings : Settings := {
      spelling := {
        comparison := fun
          | .equals => "true"
          | .notEquals => "tru"
          | op => op.symbol
        logical := fun
          | .and => "1"
          | .or => "12" } }
    ∃ configuration n m,
      Configuration.ofSettings? settings = .ok configuration ∧
      Condition.ofText .standard "A == 1 && (B != 12 || tru == true)" = .ok n ∧
      Condition.ofText configuration.vocabulary "A true 1 1 (B tru 12 12 tru true true)" = .ok m ∧
      m.bare = n.bare := by
  intro settings
  have hok : (Configuration.ofSettings? settings).isOk = true := by decide +kernel
  obtain ⟨configuration, hconfiguration⟩ := exists_ok_of_isOk hok
  obtain ⟨n, hn, hwritten⟩ := exists_ofText_eq .standard "A == 1 && (B != 12 || tru == true)"
    (fun n => (n.write settings.spelling, n.comparisons.all fun c => !c.ignoreCase))
    ("A true 1 1 (B tru 12 12 tru true true)", true) (by decide +kernel)
  obtain ⟨hrespelled, hcase⟩ := Prod.mk.inj hwritten
  obtain ⟨⟨m, hm, hbare⟩, _⟩ := ofText_respelled configuration hn (by simpa using hcase)
  rw [configuration.spelled, (Configuration.of_ofSettings? hconfiguration).1, hrespelled] at hm
  exact ⟨configuration, n, m, hconfiguration, hn, hm, hbare⟩

end RecordFilter
