import RecordFilter.Outcome
import RecordFilter.Text.Escape
import RecordFilter.Vocabulary

/-!
The rules for the words of a spelling, and vocabularies that keep them. A checked vocabulary carries
the proof that its words keep the rules and that they are looked up from the longest to the
shortest, so that nothing that takes one has to check this again.
-/
namespace RecordFilter

/-- What a configured word stands for. -/
inductive WordRole where
  | comparison (op : CompareOp)
  | logical (op : LogicalOp)
  | suffix
  deriving DecidableEq

def WordRole.name : WordRole → String
  | .comparison op => op.name
  | .logical op => op.name
  | .suffix => "case-insensitive appendix"

def Spelling.word (s : Spelling) : WordRole → String
  | .comparison op => s.comparison op
  | .logical op => s.logical op
  | .suffix => s.suffix

/-- Why a spelling cannot be used. -/
inductive SpellingError where
  | emptyWord (role : WordRole)
  | forbiddenCharacter (role : WordRole) (word : String) (found : Char)
  | sharedWord (word : String) (first second : WordRole)
  | emptySuffix
  deriving DecidableEq

def SpellingError.message : SpellingError → String
  | .emptyWord role => s!"operator {role.name} has an empty token"
  | .forbiddenCharacter role word found =>
    s!"token `{word}` for {role.name} must not contain {quotedChar found}"
  | .sharedWord word first second =>
    s!"token `{word}` is configured for both {first.name} and {second.name}"
  | .emptySuffix => "case-insensitive appendix must not be empty"

/-- Signs inside numbers and dates. A connective follows a literal, so it must not hold one. -/
def isLiteralSign (c : Char) : Bool := ['+', '-', ':', '.'].contains c

/-- The characters that the word of a role must not hold. A connective follows a literal, so the
signs inside numbers and dates are not for its word. -/
def WordRole.Forbids (role : WordRole) (c : Char) : Prop :=
  isBlank c = true ∨ c ∈ ['"', '(', ')', '[', ']', ','] ∨
    (∃ op, role = .logical op) ∧ c ∈ ['+', '-', ':', '.']

theorem WordRole.forbids_of_separates {c : Char} (role : WordRole)
    (h : (isBlank c || isReserved c) = true) : role.Forbids c := by
  rw [Bool.or_eq_true, isReserved, List.contains_iff_mem] at h
  obtain hblank | hreserved := h
  · exact .inl hblank
  · exact .inr (.inl hreserved)

/-- The rules for the words of a spelling. The suffix may be the same as the word of an operator,
since it is only looked for after one. -/
structure Spelling.WellFormed (s : Spelling) : Prop where
  nonempty : ∀ role, s.word role ≠ ""
  plain : ∀ role, ∀ c ∈ (s.word role).toList, ¬ role.Forbids c
  distinct : ∀ role ≠ .suffix, ∀ role' ≠ .suffix, role ≠ role' →
    (s.word role).toList.map Char.toLower ≠ (s.word role').toList.map Char.toLower

/-! Checking the rules. -/

namespace Spelling

/-- A word is not empty and holds no blank and no reserved character. -/
def checkWord (role : WordRole) (word : String) : Except SpellingError Unit :=
  if word.isEmpty then .error (.emptyWord role)
  else match word.toList.find? fun c => isBlank c || isReserved c with
    | some c => .error (.forbiddenCharacter role word c)
    | none => .ok ()

/-- Checks the words in order, each against those before it. -/
def checkWords (s : Spelling) (seen : List WordRole) : List WordRole → Except SpellingError Unit
  | [] => .ok ()
  | role :: rest => do
    checkWord role (s.word role)
    match seen.find? fun other => sameIgnoringCase (s.word other) (s.word role) with
    | some other => .error (.sharedWord (s.word role) other role)
    | none => checkWords s (role :: seen) rest

def checkConnectives (s : Spelling) : List LogicalOp → Except SpellingError Unit
  | [] => .ok ()
  | op :: rest =>
    match (s.logical op).toList.find? isLiteralSign with
    | some c => .error (.forbiddenCharacter (.logical op) (s.logical op) c)
    | none => checkConnectives s rest

/-- The roles that need words of their own. -/
def operatorRoles : List WordRole :=
  CompareOp.all.map .comparison ++ LogicalOp.all.map .logical

/-- All rules. The first one that is broken is reported. -/
def check (s : Spelling) : Except SpellingError Unit := do
  s.checkWords [] operatorRoles
  s.checkConnectives LogicalOp.all
  if s.suffix.isEmpty then .error .emptySuffix
  checkWord .suffix s.suffix

theorem of_checkWord {role : WordRole} {word : String} (h : checkWord role word = .ok ()) :
    word ≠ "" ∧ ∀ c ∈ word.toList, isBlank c = false ∧ isReserved c = false := by
  unfold checkWord at h
  by_cases hempty : word.isEmpty = true
  · rw [if_pos hempty] at h
    cases h
  · rw [if_neg hempty] at h
    refine ⟨by simpa using hempty, ?_⟩
    cases hfind : word.toList.find? fun c => isBlank c || isReserved c with
    | some c => simp [hfind] at h
    | none => simpa using hfind

theorem sameIgnoringCase_comm (s t : String) : sameIgnoringCase s t = sameIgnoringCase t s := by
  simp only [sameIgnoringCase, Bool.beq_comm]

/-- Each word keeps the rules for single words and differs from those that were seen before it. -/
theorem of_checkWords {s : Spelling} {seen roles : List WordRole}
    (h : s.checkWords seen roles = .ok ()) :
    (∀ role ∈ roles, checkWord role (s.word role) = .ok ()) ∧
      (∀ other ∈ seen, ∀ role ∈ roles, sameIgnoringCase (s.word other) (s.word role) = false) ∧
      ∀ role ∈ roles, ∀ role' ∈ roles, role ≠ role' →
        sameIgnoringCase (s.word role) (s.word role') = false := by
  induction roles generalizing seen with
  | nil => simp
  | cons role rest ih =>
    rw [checkWords] at h
    obtain ⟨_, hword, h⟩ := bind_eq_ok_iff.mp h
    cases hfind : seen.find? fun other => sameIgnoringCase (s.word other) (s.word role) with
    | some other => simp [hfind] at h
    | none =>
      simp only [hfind] at h
      obtain ⟨hwords, hseen, hrest⟩ := ih h
      have hnew : ∀ other ∈ seen, sameIgnoringCase (s.word other) (s.word role) = false := by
        simpa using hfind
      have hrole := hseen role List.mem_cons_self
      refine ⟨List.forall_mem_cons.mpr ⟨hword, hwords⟩, fun other hother =>
        List.forall_mem_cons.mpr
          ⟨hnew other hother, hseen other (List.mem_cons_of_mem role hother)⟩,
        List.forall_mem_cons.mpr ⟨?first, ?later⟩⟩
      case first =>
        exact List.forall_mem_cons.mpr ⟨fun hne => absurd rfl hne, fun x hx _ => hrole x hx⟩
      case later =>
        refine fun x hx => List.forall_mem_cons.mpr ⟨fun _ => ?_, hrest x hx⟩
        rw [sameIgnoringCase_comm]
        exact hrole x hx

theorem of_checkConnectives {s : Spelling} {ops : List LogicalOp}
    (h : s.checkConnectives ops = .ok ()) :
    ∀ op ∈ ops, ∀ c ∈ (s.logical op).toList, isLiteralSign c = false := by
  induction ops with
  | nil => simp
  | cons op rest ih =>
    unfold checkConnectives at h
    split at h
    · cases h
    · next hfind =>
      refine List.forall_mem_cons.mpr ⟨?_, ih h⟩
      simpa using hfind

theorem mem_operatorRoles {role : WordRole} (h : role ≠ .suffix) : role ∈ operatorRoles := by
  cases role with
  | comparison op => simp [operatorRoles, CompareOp.mem_all]
  | logical op => simp [operatorRoles, LogicalOp.mem_all]
  | suffix => exact absurd rfl h

/-- A spelling that passes all checks keeps the rules. -/
theorem wellFormed_of_check {s : Spelling} (h : s.check = .ok ()) : s.WellFormed := by
  rw [check] at h
  obtain ⟨_, hwords, h⟩ := bind_eq_ok_iff.mp h
  obtain ⟨_, hconnectives, h⟩ := bind_eq_ok_iff.mp h
  have hnonempty : ¬ s.suffix.isEmpty = true := by
    intro hempty
    rw [if_pos hempty] at h
    cases h
  rw [if_neg hnonempty] at h
  have hsuffix : checkWord .suffix s.suffix = .ok () := h
  obtain ⟨hoperators, _, hdistinct⟩ := of_checkWords hwords
  have hword : ∀ role, checkWord role (s.word role) = .ok () := by
    intro role
    by_cases hrole : role = .suffix
    · rw [hrole]
      exact hsuffix
    · exact hoperators role (mem_operatorRoles hrole)
  refine ⟨fun role => (of_checkWord (hword role)).1, fun role c hc hforbids => ?plain,
    fun role hrole role' hrole' hne hsame => ?distinct⟩
  case plain =>
    obtain ⟨hblank, hreserved⟩ := (of_checkWord (hword role)).2 c hc
    obtain hblank' | hreserved' | ⟨⟨op, rfl⟩, hsign⟩ := hforbids
    · rw [hblank] at hblank'
      cases hblank'
    · rw [isReserved, List.contains_iff_mem.mpr hreserved'] at hreserved
      cases hreserved
    · have hsign' := of_checkConnectives hconnectives op op.mem_all c hc
      rw [isLiteralSign, List.contains_iff_mem.mpr hsign] at hsign'
      cases hsign'
  case distinct =>
    have hdiffer := hdistinct role (mem_operatorRoles hrole) role' (mem_operatorRoles hrole') hne
    rw [sameIgnoringCase_iff.mpr hsame] at hdiffer
    cases hdiffer

end Spelling

/-! Vocabularies of spellings that keep the rules. -/

/-- A vocabulary holds the words of a spelling, each under its own operator and the longer ones
first. -/
structure Vocabulary.Holds (v : Vocabulary) (s : Spelling) : Prop where
  comparisonWord : ∀ op, v.comparisonWord op = s.comparison op
  logicalWord : ∀ op, v.logicalWord op = s.logical op
  suffix : v.suffix = s.suffix
  comparisons_perm : v.comparisons.Perm (CompareOp.all.map fun op => (s.comparison op, op))
  logicals_perm : v.logicals.Perm (LogicalOp.all.map fun op => (s.logical op, op))
  comparisons_ordered : v.comparisons.Pairwise fun a b => b.1.utf8ByteSize ≤ a.1.utf8ByteSize
  logicals_ordered : v.logicals.Pairwise fun a b => b.1.utf8ByteSize ≤ a.1.utf8ByteSize

namespace Vocabulary

theorem find?_byLength {α : Type} [DecidableEq α] (word : α → String) {ops : List α} {op : α}
    (hop : op ∈ ops) :
    (byLength (ops.map fun op => (word op, op))).find? (fun entry => entry.2 == op) =
      some (word op, op) := by
  cases h : (byLength (ops.map fun op => (word op, op))).find? fun entry => entry.2 == op with
  | none =>
    have hmem : (word op, op) ∈ byLength (ops.map fun op => (word op, op)) :=
      (byLength_perm _).mem_iff.mpr (List.mem_map_of_mem hop)
    simpa using List.find?_eq_none.mp h _ hmem
  | some entry =>
    have heq : entry.2 = op := by simpa using List.find?_some h
    have hmem := (byLength_perm _).mem_iff.mp (List.mem_of_find?_eq_some h)
    obtain ⟨op', _, rfl⟩ := List.mem_map.mp hmem
    obtain rfl : op' = op := heq
    rfl

theorem comparisonWord_ofSpelling (s : Spelling) (op : CompareOp) :
    (ofSpelling s).comparisonWord op = s.comparison op := by
  rw [comparisonWord, ofSpelling, find?_byLength s.comparison op.mem_all]

theorem logicalWord_ofSpelling (s : Spelling) (op : LogicalOp) :
    (ofSpelling s).logicalWord op = s.logical op := by
  rw [logicalWord, ofSpelling, find?_byLength s.logical op.mem_all]

theorem spelling_ofSpelling (s : Spelling) : (ofSpelling s).spelling = s := by
  rw [spelling, funext (comparisonWord_ofSpelling s), funext (logicalWord_ofSpelling s)]
  rfl

theorem holds_ofSpelling (s : Spelling) : (ofSpelling s).Holds s where
  comparisonWord := comparisonWord_ofSpelling s
  logicalWord := logicalWord_ofSpelling s
  suffix := rfl
  comparisons_perm := byLength_perm _
  logicals_perm := byLength_perm _
  comparisons_ordered := byLength_ordered _
  logicals_ordered := byLength_ordered _

end Vocabulary

/-- A vocabulary whose words keep the rules and are looked up from the longest to the shortest. -/
structure CheckedVocabulary extends Vocabulary where
  wellFormed : toVocabulary.spelling.WellFormed
  holds : toVocabulary.Holds toVocabulary.spelling

namespace CheckedVocabulary

instance : Coe CheckedVocabulary Vocabulary := ⟨toVocabulary⟩

/-- The words of a spelling that keeps the rules. -/
def ofWellFormed (s : Spelling) (h : s.WellFormed) : CheckedVocabulary where
  toVocabulary := .ofSpelling s
  wellFormed := by rwa [Vocabulary.spelling_ofSpelling]
  holds := by
    rw [Vocabulary.spelling_ofSpelling]
    exact Vocabulary.holds_ofSpelling s

def standard : CheckedVocabulary := ofWellFormed .standard (Spelling.wellFormed_of_check rfl)

theorem spelling_standard : standard.spelling = .standard :=
  Vocabulary.spelling_ofSpelling .standard

end CheckedVocabulary

/-- The words of a spelling, if it keeps the rules. The first rule that is broken is reported. -/
def Vocabulary.ofSpelling? (s : Spelling) : Except SpellingError CheckedVocabulary :=
  match _checked : s.check with
  | .ok () => .ok (.ofWellFormed s (Spelling.wellFormed_of_check _checked))
  | .error e => .error e

theorem Vocabulary.ofSpelling?_eq_ok_iff {s : Spelling} {v : CheckedVocabulary} :
    ofSpelling? s = .ok v ↔
      ∃ h : s.check = .ok (), v = .ofWellFormed s (Spelling.wellFormed_of_check h) := by
  unfold ofSpelling?
  split
  · next h =>
    rw [Except.ok.injEq]
    exact ⟨fun heq => ⟨h, heq.symm⟩, fun ⟨_, heq⟩ => heq.symm⟩
  · next h => exact ⟨nofun, fun ⟨hok, _⟩ => by rw [h] at hok; cases hok⟩

theorem Vocabulary.ofSpelling?_eq_error_iff {s : Spelling} {e : SpellingError} :
    ofSpelling? s = .error e ↔ s.check = .error e := by
  unfold ofSpelling?
  split
  · next h => exact ⟨nofun, fun he => by rw [h] at he; cases he⟩
  · next h => rw [h, Except.error.injEq, Except.error.injEq]

theorem Vocabulary.of_ofSpelling? {s : Spelling} {v : CheckedVocabulary}
    (h : ofSpelling? s = .ok v) : v.toVocabulary = ofSpelling s := by
  obtain ⟨_, rfl⟩ := ofSpelling?_eq_ok_iff.mp h
  rfl

theorem CheckedVocabulary.spelling_of_ofSpelling? {s : Spelling} {v : CheckedVocabulary}
    (h : Vocabulary.ofSpelling? s = .ok v) : v.spelling = s := by
  rw [Vocabulary.of_ofSpelling? h, Vocabulary.spelling_ofSpelling]

/-- Settings whose spelling has been checked, with the words made ready. -/
structure Configuration where
  settings : Settings := {}
  vocabulary : CheckedVocabulary := .standard
  /-- The words are those of the settings. -/
  spelled : vocabulary.spelling = settings.spelling := by
    exact CheckedVocabulary.spelling_standard

def Configuration.ofSettings? (settings : Settings) : Except SpellingError Configuration :=
  match _accepted : Vocabulary.ofSpelling? settings.spelling with
  | .ok vocabulary =>
    .ok { settings, vocabulary, spelled := CheckedVocabulary.spelling_of_ofSpelling? _accepted }
  | .error e => .error e

theorem Configuration.of_ofSettings? {settings : Settings} {configuration : Configuration}
    (h : ofSettings? settings = .ok configuration) : configuration.settings = settings ∧
      configuration.vocabulary.toVocabulary = Vocabulary.ofSpelling settings.spelling := by
  unfold ofSettings? at h
  split at h
  · next hvocabulary =>
    cases h
    exact ⟨rfl, Vocabulary.of_ofSpelling? hvocabulary⟩
  · cases h

end RecordFilter
