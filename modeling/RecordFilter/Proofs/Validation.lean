import RecordFilter.Outcome
import RecordFilter.Proofs.Lookup

/-!
The checks of a spelling. They accept exactly the spellings that keep the rules for words, and the
vocabulary of an accepted spelling gives back every word as it was configured. A spelling that is
refused breaks a rule in the way that is reported.
-/
namespace RecordFilter

/-- What an error says of a spelling is so: the word that it gives is the one of the role that it
gives, and this word breaks the rule. -/
def SpellingError.TrueOf (s : Spelling) : SpellingError → Prop
  | .emptyWord role => role ≠ .suffix ∧ s.word role = ""
  | .forbiddenCharacter role word found =>
    word = s.word role ∧ found ∈ word.toList ∧ role.Forbids found
  | .sharedWord word first second =>
    first ≠ .suffix ∧ second ≠ .suffix ∧ first ≠ second ∧ word = s.word second ∧
      (s.word first).toList.map Char.toLower = word.toList.map Char.toLower
  | .emptySuffix => s.suffix = ""

theorem SpellingError.TrueOf.not_wellFormed {s : Spelling} {e : SpellingError} (h : e.TrueOf s) :
    ¬ s.WellFormed := by
  intro hs
  cases e with
  | emptyWord role => exact hs.nonempty role h.2
  | forbiddenCharacter role word found =>
    obtain ⟨rfl, hfound, hforbids⟩ := h
    exact hs.plain role found hfound hforbids
  | sharedWord word first second =>
    obtain ⟨hfirst, hsecond, hne, rfl, hsame⟩ := h
    exact hs.distinct first hfirst second hsecond hne hsame
  | emptySuffix => exact hs.nonempty .suffix h

namespace Spelling

/-! Each check fails for a reason that it reports. -/

section

variable {s : Spelling} {e : SpellingError}

theorem forbids_of_isLiteralSign {c : Char} (op : LogicalOp) (h : isLiteralSign c = true) :
    (WordRole.logical op).Forbids c := by
  rw [isLiteralSign, List.contains_iff_mem] at h
  exact .inr (.inr ⟨⟨op, rfl⟩, h⟩)

/-- Only the word of an operator is found to be empty here, since the suffix has a check of its own
for that. -/
theorem trueOf_of_checkWord {role : WordRole} (hempty : role = .suffix → s.word role ≠ "")
    (h : checkWord role (s.word role) = .error e) : e.TrueOf s := by
  unfold checkWord at h
  split at h
  · next hword =>
    have hword : s.word role = "" := by simpa using hword
    cases h
    exact ⟨fun hrole => hempty hrole hword, hword⟩
  · split at h
    · next c hfind =>
      cases h
      exact ⟨rfl, List.mem_of_find?_eq_some hfind,
        role.forbids_of_separates (by simpa using List.find?_some hfind)⟩
    · cases h

/-- The roles that have been seen are others than those that are still to come, so that a word that
is met again belongs to two roles. -/
theorem trueOf_of_checkWords {seen roles : List WordRole}
    (hroles : (seen.reverse ++ roles).Nodup) (hsuffix : .suffix ∉ seen.reverse ++ roles)
    (h : checkWords s seen roles = .error e) : e.TrueOf s := by
  induction roles generalizing seen with
  | nil => cases h
  | cons role rest ih =>
    have hrole : role ≠ .suffix := by
      rintro rfl
      simp at hsuffix
    rw [checkWords] at h
    obtain hword | ⟨_, _, h⟩ := bind_eq_error_iff.mp h
    · exact trueOf_of_checkWord (fun heq => absurd heq hrole) hword
    cases hfind : seen.find? fun other => sameIgnoringCase (s.word other) (s.word role) with
    | some other =>
      rw [hfind] at h
      cases h
      have hother := List.mem_of_find?_eq_some hfind
      have hsame : sameIgnoringCase (s.word other) (s.word role) = true := by
        simpa using List.find?_some hfind
      have hne : other ≠ role := (List.nodup_append.mp hroles).2.2 other
        (List.mem_reverse.mpr hother) role List.mem_cons_self
      refine ⟨?_, hrole, hne, rfl, sameIgnoringCase_iff.mp hsame⟩
      rintro rfl
      simp [hother] at hsuffix
    | none =>
      rw [hfind] at h
      rw [List.append_cons, ← List.reverse_cons] at hroles hsuffix
      exact ih hroles hsuffix h

theorem trueOf_of_checkConnectives {ops : List LogicalOp}
    (h : checkConnectives s ops = .error e) : e.TrueOf s := by
  induction ops with
  | nil => cases h
  | cons op rest ih =>
    unfold checkConnectives at h
    split at h
    · next c hfind =>
      cases h
      exact ⟨rfl, List.mem_of_find?_eq_some hfind,
        forbids_of_isLiteralSign op (List.find?_some hfind)⟩
    · exact ih h

/-- Whatever order the checks are made in, the error is true of the spelling. -/
theorem trueOf_of_check (h : s.check = .error e) : e.TrueOf s := by
  rw [check] at h
  obtain hwords | ⟨_, _, h⟩ := bind_eq_error_iff.mp h
  · exact trueOf_of_checkWords (by decide) (by decide) hwords
  obtain hconnectives | ⟨_, _, h⟩ := bind_eq_error_iff.mp h
  · exact trueOf_of_checkConnectives hconnectives
  by_cases hempty : s.suffix.isEmpty = true
  · rw [if_pos hempty] at h
    cases h
    exact String.isEmpty_iff.mp hempty
  rw [if_neg hempty] at h
  have hnonempty : s.word .suffix ≠ "" := fun hnil => hempty (String.isEmpty_iff.mpr hnil)
  exact trueOf_of_checkWord (fun _ => hnonempty) h

end

end Spelling

namespace Vocabulary

/-- The checks accept a spelling exactly if it keeps the rules. What they make of it holds its
words, and what they report of a spelling that they refuse is so. -/
theorem checks_decide_wellFormed (s : Spelling) :
    ((∃ v, ofSpelling? s = .ok v) ↔ s.WellFormed) ∧
    (∀ v, ofSpelling? s = .ok v → v.Holds s) ∧
    ∀ e, ofSpelling? s = .error e → e.TrueOf s := by
  refine ⟨⟨?_, fun hs => ?_⟩, fun v h => ?_, fun e h => ?_⟩
  · rintro ⟨v, h⟩
    obtain ⟨hcheck, _⟩ := ofSpelling?_eq_ok_iff.mp h
    exact Spelling.wellFormed_of_check hcheck
  · cases h : s.check with
    | ok => exact ⟨_, ofSpelling?_eq_ok_iff.mpr ⟨h, rfl⟩⟩
    | error e => exact absurd hs (Spelling.trueOf_of_check h).not_wellFormed
  · rw [of_ofSpelling? h]
    exact holds_ofSpelling s
  · exact Spelling.trueOf_of_check (ofSpelling?_eq_error_iff.mp h)

/-- Two words that differ in the case of a letter outside of ASCII are different words; two that
differ in the case of others are one. -/
theorem checks_decide_wellFormed_of_other_case :
    let spelled (word : String) : Spelling :=
      { comparison := fun op =>
          if op = .equals then "größer" else if op = .lessThan then word else op.symbol }
    let shared : SpellingError :=
      .sharedWord "GRößER" (.comparison .equals) (.comparison .lessThan)
    ((spelled "GRÖßER").WellFormed ∧ ∃ v, ofSpelling? (spelled "GRÖßER") = .ok v ∧
      v.Holds (spelled "GRÖßER")) ∧
    ofSpelling? (spelled "GRößER") = .error shared ∧ shared.TrueOf (spelled "GRößER") := by
  intro spelled shared
  have hok : (ofSpelling? (spelled "GRÖßER")).isOk = true := by decide +kernel
  obtain ⟨v, haccepted⟩ := exists_ok_of_isOk hok
  have hrefused : ofSpelling? (spelled "GRößER") = .error shared :=
    error?_eq_some_iff.mp (by decide +kernel)
  obtain ⟨hdecides, hholds, _⟩ := checks_decide_wellFormed (spelled "GRÖßER")
  exact ⟨⟨hdecides.mp ⟨v, haccepted⟩, v, haccepted, hholds v haccepted⟩, hrefused,
    (checks_decide_wellFormed (spelled "GRößER")).2.2 shared hrefused⟩

end Vocabulary
end RecordFilter
