import RecordFilter.Proofs.RoundTrip

/-!
Operators with the suffix. The suffix is looked for after the longest operator that is there, and
not before: an operator is read back with its suffix unless another one has a longer word that the
two begin with.
-/
namespace RecordFilter

open Vocabulary (WordAt)

/-- The word of another operator is longer, and it is at the head of the text of this one with its
suffix. -/
def Spelling.Overtakes (s : Spelling) (other op : CompareOp) : Prop :=
  (s.comparison op).utf8ByteSize < (s.comparison other).utf8ByteSize ∧
    WordAt (s.comparison other).toList (s.comparisonText op true).toList

instance (s : Spelling) (other op : CompareOp) : Decidable (s.Overtakes other op) :=
  inferInstanceAs (Decidable (_ ∧ _))

namespace CheckedVocabulary

open Vocabulary

/-- What comes after an operator and its suffix does not matter if it is apart from them. -/
theorem matchComparison_apart (v : CheckedVocabulary) (text : List Char) {rest : List Char}
    (hrest : ∀ d ∈ rest.head?, isBlank d = true) :
    v.matchComparison (text ++ rest) = v.matchComparison text := by
  cases rest with
  | nil => rw [List.append_nil]
  | cons d rest => exact v.matchComparison_seam (isBreak_of_blank (hrest d rfl)) text rest

theorem matchComparison_suffixed_iff (v : CheckedVocabulary) (op : CompareOp) :
    v.matchComparison (v.spelling.comparisonText op true).toList =
        some ⟨op, true, (v.spelling.comparisonText op true).length⟩ ↔
      ∀ other, ¬ v.spelling.Overtakes other op := by
  have hown := wordAt_self (v.spelling.comparisonText op true).toList
  rw [v.matchComparison_eq_some_iff, and_iff_right ⟨rfl, hown, nofun⟩]
  refine forall_congr' fun other => ⟨fun hnone hovertakes => ?_, fun hnone ignoreCase hthere => ?_⟩
  · obtain ⟨hlonger, hthere⟩ := hovertakes
    have hle := hnone false (by rwa [v.spelling.toList_comparisonText_false])
    simp only at hle
    omega
  · by_contra hlonger
    have hlonger := Nat.lt_of_not_le hlonger
    cases ignoreCase with
    | false =>
      rw [v.spelling.toList_comparisonText_false] at hthere
      exact hnone ⟨hlonger, hthere⟩
    | true =>
      have hsize := byteSize_le_of_wordAt hthere
      rw [v.spelling.toList_comparisonText, v.spelling.toList_comparisonText, byteSize_append,
        byteSize_append, ← utf8ByteSize_eq, ← utf8ByteSize_eq] at hsize
      simp only at hlonger
      omega

/-- An operator that no other one overtakes is read back with its suffix. -/
theorem readsComparison_suffixed (v : CheckedVocabulary) {op : CompareOp}
    (hop : ∀ other, ¬ v.spelling.Overtakes other op) : v.ReadsComparison v.spelling op true :=
  v.readsComparison_of_found ((v.matchComparison_suffixed_iff op).mpr hop)

end CheckedVocabulary

/-- An operator with its suffix is read back before a blank and before the end just where no other
operator overtakes it. So a spelling may be changed for any other that passes the checks and under
which no comparison of the condition that ignores case is overtaken. -/
theorem Condition.ofText_respelled_with_suffix (configuration : Configuration) :
    let v := configuration.vocabulary
    (∀ op rest, (∀ d ∈ rest.head?, isBlank d = true) →
      (v.matchComparison ((v.spelling.comparisonText op true).toList ++ rest) =
          some ⟨op, true, (v.spelling.comparisonText op true).length⟩ ↔
        ∀ other, ¬ v.spelling.Overtakes other op)) ∧
    ∀ v' text n, Condition.ofText v' text = .ok n →
      (∀ c ∈ n.comparisons, c.ignoreCase = true → ∀ other, ¬ v.spelling.Overtakes other c.op) →
      (∃ m, Condition.ofText v (n.write v.spelling) = .ok m ∧ m.bare = n.bare) ∧
      ∀ shape p, Predicate.ofText configuration shape (n.write v.spelling) = .ok p ↔
        Predicate.ofText configuration.usual shape n.text = .ok p := by
  intro v
  refine ⟨fun op rest hrest => ?_, fun v' text n hn hovertaken => ?_⟩
  · rw [v.matchComparison_apart _ hrest]
    exact v.matchComparison_suffixed_iff op
  · refine ofText_respelled_of_reads hn fun c hc => ?_
    cases hcase : c.ignoreCase with
    | false => exact v.readsComparison c.op
    | true => exact v.readsComparison_suffixed (hovertaken c hc hcase)

/-- The greater-than sign with an equals sign for the suffix is read as the sign for greater or
equal. -/
theorem Vocabulary.suffix_not_always_found :
    ¬ ∀ (settings : Settings) (configuration : Configuration),
      Configuration.ofSettings? settings = .ok configuration →
      ∀ op rest, (∀ d ∈ rest.head?, isBlank d = true) →
        let v := configuration.vocabulary
        v.matchComparison ((v.spelling.comparisonText op true).toList ++ rest) =
          some ⟨op, true, (v.spelling.comparisonText op true).length⟩ := by
  intro hall
  let settings : Settings := { spelling := { suffix := "=" } }
  have hok : (Configuration.ofSettings? settings).isOk = true := by decide +kernel
  obtain ⟨configuration, hconfiguration⟩ := exists_ok_of_isOk hok
  have hfound := hall settings configuration hconfiguration .greaterThan " \"x\"".toList
    ((Option.all_eq_true _ _).mp (by decide))
  simp only [(Configuration.of_ofSettings? hconfiguration).2, spelling_ofSpelling] at hfound
  rw [ofSpelling_eq_inserted] at hfound
  revert hfound
  decide +kernel

/-- A suffix that the word of the operator ends with as well. -/
theorem Condition.ofText_respelled_with_dollar :
    let settings : Settings := {
      spelling := {
        comparison := fun
          | .equals => "@@$"
          | op => op.symbol
        suffix := "$" } }
    ∃ configuration n m,
      Configuration.ofSettings? settings = .ok configuration ∧
      Condition.ofText .standard "Name ==* \"x\"" = .ok n ∧
      configuration.vocabulary.matchComparison "@@$$ \"x\"".toList = some ⟨.equals, true, 4⟩ ∧
      Condition.ofText configuration.vocabulary "Name @@$$ \"x\"" = .ok m ∧ m.bare = n.bare := by
  intro settings
  have hok : (Configuration.ofSettings? settings).isOk = true := by decide +kernel
  obtain ⟨configuration, hconfiguration⟩ := exists_ok_of_isOk hok
  obtain ⟨n, hn, hrespelled⟩ := exists_ofText_eq .standard "Name ==* \"x\""
    (fun n => n.write settings.spelling) "Name @@$$ \"x\"" (by decide +kernel)
  have hspelling : configuration.vocabulary.spelling = settings.spelling := by
    rw [configuration.spelled, (Configuration.of_ofSettings? hconfiguration).1]
  have hovertaken : ∀ op ∈ CompareOp.all, ∀ other ∈ CompareOp.all,
      ¬ settings.spelling.Overtakes other op := by decide +kernel
  have hop : ∀ op other, ¬ settings.spelling.Overtakes other op := fun op other =>
    hovertaken op op.mem_all other other.mem_all
  obtain ⟨hfound, hread⟩ := ofText_respelled_with_suffix configuration
  rw [hspelling] at hfound hread
  have hblank : ∀ d ∈ " \"x\"".toList.head?, isBlank d = true :=
    (Option.all_eq_true _ _).mp (by decide)
  have htext := (hfound .equals " \"x\"".toList hblank).mpr (hop .equals)
  obtain ⟨⟨m, hm, hbare⟩, _⟩ := hread .standard _ n hn fun c _ _ => hop c.op
  have hwhole : (settings.spelling.comparisonText .equals true).toList ++ " \"x\"".toList =
      "@@$$ \"x\"".toList := by decide +kernel
  have hlength : (settings.spelling.comparisonText .equals true).length = 4 := by decide +kernel
  rw [hwhole, hlength] at htext
  rw [hrespelled] at hm
  exact ⟨configuration, n, m, hconfiguration, hn, htext, hm, hbare⟩

end RecordFilter
