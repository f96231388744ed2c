import RecordFilter.Proofs.Lookup

/-!
The longest match. Of all operators that can be read at the head of a text the one with the longest
word is found. This is one operator, and neither the order in which the operators are declared nor
the case of the letters in the text makes a difference to it.
-/
namespace RecordFilter

def CleanCut (before after : List Char) : Prop :=
  ∀ c ∈ before.getLast?, ∀ d ∈ after.head?, ¬ (isWordChar c = true ∧ isWordChar d = true)

def StandsAt (word text : List Char) : Prop :=
  ∃ piece rest, text = piece ++ rest ∧ piece.map Char.toLower = word.map Char.toLower ∧
    CleanCut piece rest

/-- What can be read of a comparison operator at the head of a text: the operator with its suffix,
and where this does not stand there, the operator alone. -/
inductive Spelling.Offers (s : Spelling) (text : List Char) : Vocabulary.OperatorMatch → Prop
  | suffixed (op : CompareOp) :
    StandsAt ((s.comparison op).toList ++ s.suffix.toList) text →
    Offers s text ⟨op, true, (s.comparison op).length + s.suffix.length⟩
  | plain (op : CompareOp) :
    ¬ StandsAt ((s.comparison op).toList ++ s.suffix.toList) text →
    StandsAt (s.comparison op).toList text →
    Offers s text ⟨op, false, (s.comparison op).length⟩

inductive Spelling.OffersLogical (s : Spelling) (text : List Char) : LogicalOp × Nat → Prop
  | plain (op : LogicalOp) : StandsAt (s.logical op).toList text →
    OffersLogical s text (op, (s.logical op).length)

/-- What is found is larger than every other candidate. Nothing is found only if there is no
candidate. -/
structure Longest {α : Type} (size : α → Nat) (candidate : α → Prop) (found : Option α) :
    Prop where
  some_iff (a : α) : found = some a ↔ candidate a ∧ ∀ b, candidate b → b ≠ a → size b < size a
  none_iff : found = none ↔ ∀ a, ¬ candidate a

/-- There is at most one answer, so the vocabulary finds what any correct search would. -/
theorem Longest.unique {α : Type} {size : α → Nat} {candidate : α → Prop} {found found' : Option α}
    (h : Longest size candidate found) (h' : Longest size candidate found') : found = found' :=
  Option.ext fun a => (h.some_iff a).trans (h'.some_iff a).symm

theorem Longest.congr {α : Type} {size : α → Nat} {candidate candidate' : α → Prop}
    {found : Option α} (hsame : ∀ a, candidate a ↔ candidate' a)
    (h : Longest size candidate found) : Longest size candidate' found := by
  obtain rfl : candidate = candidate' := funext fun a => propext (hsame a)
  exact h

/-! Words at the head of a text. -/

/-- The check on the last character of a word and the one after it is the absence of a word across
the cut. -/
theorem cleanCut_iff {word text : List Char} :
    CleanCut (text.take word.length) (text.drop word.length) ↔
      Vocabulary.splitsWord word.length text = false := by
  unfold CleanCut Vocabulary.splitsWord
  cases (text.take word.length).getLast? with
  | none => simp
  | some c =>
    cases (text.drop word.length).head? with
    | none => simp
    | some d => simp

/-- The comparison character by character finds the same words as one in small letters. -/
theorem standsAt_iff {word text : List Char} :
    StandsAt word text ↔ Vocabulary.WordAt word text := by
  rw [Vocabulary.WordAt, startsIgnoringCase_iff, ← cleanCut_iff]
  constructor
  · rintro ⟨piece, rest, rfl, hpiece, hcut⟩
    have hlength : word.length = piece.length := by
      simpa using congrArg List.length hpiece.symm
    rw [hlength, List.take_left, List.drop_left, List.map_append, hpiece]
    exact ⟨List.prefix_append _ _, hcut⟩
  · rintro ⟨hstarts, hcut⟩
    refine ⟨_, _, (List.take_append_drop word.length text).symm, ?_, hcut⟩
    rw [List.map_take, ← List.length_map (f := Char.toLower), ← List.prefix_iff_eq_take.mp hstarts]

/-- Capitals and small letters are word characters alike, since each lie in a range of letters. -/
theorem isWordChar_toLower (c : Char) : isWordChar c.toLower = isWordChar c := by
  obtain ⟨hlow, hhigh, heq⟩ | heq := toLower_cases c
  · have hletters : ∀ n ∈ List.range' 65 26, inRanges n Unicode.alphabeticRanges = true ∧
        inRanges (n + 32) Unicode.alphabeticRanges = true := by decide +kernel
    obtain ⟨hcapital, hsmall⟩ := hletters c.toNat (List.mem_range'_1.mpr ⟨hlow, by omega⟩)
    simp [isWordChar, isLetter, heq, hcapital, hsmall]
  · rw [heq]

theorem splitsWord_map_toLower (n : Nat) (text : List Char) :
    Vocabulary.splitsWord n (text.map Char.toLower) = Vocabulary.splitsWord n text := by
  unfold Vocabulary.splitsWord
  rw [← List.map_take, ← List.map_drop, List.getLast?_map, List.head?_map]
  cases (text.take n).getLast? with
  | none => rfl
  | some c =>
    cases (text.drop n).head? with
    | none => rfl
    | some d => simp [isWordChar_toLower]

/-- The case of the letters of a text does not count. -/
theorem standsAt_congr {text text' : List Char}
    (hsame : text'.map Char.toLower = text.map Char.toLower) (word : List Char) :
    StandsAt word text' ↔ StandsAt word text := by
  rw [standsAt_iff, standsAt_iff, Vocabulary.WordAt, Vocabulary.WordAt, startsIgnoringCase_iff,
    startsIgnoringCase_iff, ← splitsWord_map_toLower _ text', hsame, splitsWord_map_toLower]

/-- As many bytes are taken of the text as the word has. -/
theorem StandsAt.byteSize_take {word text : List Char} (h : StandsAt word text) :
    byteSize (text.take word.length) = byteSize word := by
  obtain ⟨piece, rest, rfl, hpiece, _⟩ := h
  have hlength : word.length = piece.length := by simpa using congrArg List.length hpiece.symm
  rw [hlength, List.take_left, ← byteSize_map_toLower piece, hpiece, byteSize_map_toLower]

namespace Vocabulary

/-- Every entry gives what is on offer of its operator. If no two operators with words of one length
have something on offer, a search through the entries finds the longest offer, whichever of the
words of one length come first. -/
theorem longest_declared {α β : Type} {word : α → String} {ops : List α} (hall : ∀ op, op ∈ ops)
    {entries : List (String × α)} (hentries : entries.Perm (ops.map fun op => (word op, op)))
    (hordered : Ordered entries) {search : String × α → Option β} {subject : β → α}
    {offer : β → Prop}
    (hsearch : ∀ op b, search (word op, op) = some b ↔ subject b = op ∧ offer b)
    (hdistinct : ∀ b b', offer b → offer b' →
      (word (subject b)).utf8ByteSize = (word (subject b')).utf8ByteSize → subject b = subject b') :
    Longest (fun b => (word (subject b)).utf8ByteSize) offer (entries.findSome? search) := by
  have hmem : ∀ entry, entry ∈ entries ↔ entry.1 = word entry.2 := fun _ =>
    mem_declared hall hentries
  have hgives : ∀ entry ∈ entries, ∀ b,
      search entry = some b ↔ subject b = entry.2 ∧ offer b := by
    rintro ⟨w, op⟩ hentry b
    obtain rfl : w = word op := (hmem _).mp hentry
    exact hsearch op b
  constructor
  · intro b
    constructor
    · intro h
      obtain ⟨entry, hentry, hb, hlongest⟩ := longest_of_findSome? hordered h
      obtain ⟨hsubject, hoffer⟩ := (hgives entry hentry b).mp hb
      refine ⟨hoffer, fun b' hoffer' hne => ?_⟩
      have hb' : search (word (subject b'), subject b') = some b' :=
        (hsearch _ b').mpr ⟨rfl, hoffer'⟩
      have hle := hlongest _ ((hmem (_, subject b')).mpr rfl) (Option.isSome_of_mem hb')
      rw [(hmem entry).mp hentry, ← hsubject] at hle
      refine Nat.lt_of_le_of_ne hle fun hsize => hne ?_
      rw [hdistinct b' b hoffer' hoffer hsize, (hsearch _ b).mpr ⟨rfl, hoffer⟩] at hb'
      exact (Option.some.inj hb').symm
    · rintro ⟨hoffer, hlongest⟩
      refine findSome?_of_longest hordered ((hmem (_, subject b)).mpr rfl)
        ((hsearch _ b).mpr ⟨rfl, hoffer⟩) fun entry hentry hsome hne => ?_
      obtain ⟨b', hb'⟩ := Option.isSome_iff_exists.mp hsome
      obtain ⟨hsubject', hoffer'⟩ := (hgives entry hentry b').mp hb'
      rw [(hmem entry).mp hentry, ← hsubject']
      refine hlongest b' hoffer' ?_
      rintro rfl
      exact hne (Prod.ext ((hmem entry).mp hentry ▸ hsubject' ▸ rfl) hsubject'.symm)
  · rw [List.findSome?_eq_none_iff]
    constructor
    · intro hnone b hoffer
      have hb := (hsearch (subject b) b).mpr ⟨rfl, hoffer⟩
      rw [hnone _ ((hmem (_, subject b)).mpr rfl)] at hb
      cases hb
    · intro hnone entry hentry
      rw [Option.eq_none_iff_forall_ne_some]
      exact fun b hb => hnone b ((hgives entry hentry b).mp hb).2

end Vocabulary

/-- What a spelling offers for an operator is what matching its word and suffix gives. -/
theorem Spelling.offers_iff {s : Spelling} {text : List Char} {m : Vocabulary.OperatorMatch} :
    s.Offers text m ↔
      Vocabulary.matchWord s.suffix.toList (s.comparison m.op).toList m.op text = some m := by
  rw [Vocabulary.matchWord_eq_some_iff, ← standsAt_iff, ← standsAt_iff, List.length_append,
    String.length_toList, String.length_toList]
  constructor
  · rintro (⟨op, hwhole⟩ | ⟨op, hwhole, hword⟩)
    · exact .inl ⟨hwhole, rfl⟩
    · exact .inr ⟨hwhole, hword, rfl⟩
  · rintro (⟨hwhole, heq⟩ | ⟨hwhole, hword, heq⟩)
    · rw [heq]
      exact .suffixed m.op hwhole
    · rw [heq]
      exact .plain m.op hwhole hword

theorem Spelling.Offers.starts {s : Spelling} {text : List Char} {m : Vocabulary.OperatorMatch}
    (h : s.Offers text m) : startsIgnoringCase (s.comparison m.op).toList text = true := by
  obtain ⟨_, _, hthere, _⟩ := s.matchWord_iff.mp (Spelling.offers_iff.mp h)
  exact Spelling.starts_of_wordAt hthere

/-- As many bytes are taken as the text of the operator has. -/
theorem Spelling.Offers.byteSize_take {s : Spelling} {text : List Char}
    {m : Vocabulary.OperatorMatch} (h : s.Offers text m) :
    byteSize (text.take m.length) = (s.comparisonText m.op m.ignoreCase).utf8ByteSize := by
  obtain ⟨_, hlength, hthere, _⟩ := s.matchWord_iff.mp (Spelling.offers_iff.mp h)
  rw [hlength, ← String.length_toList, (standsAt_iff.mpr hthere).byteSize_take, utf8ByteSize_eq]

theorem Spelling.OffersLogical.byteSize_take {s : Spelling} {text : List Char}
    {found : LogicalOp × Nat} (h : s.OffersLogical text found) :
    byteSize (text.take found.2) = (s.logical found.1).utf8ByteSize := by
  obtain ⟨op, hthere⟩ := h
  rw [← String.length_toList, hthere.byteSize_take, utf8ByteSize_eq]

theorem Spelling.offers_congr {s : Spelling} {text text' : List Char}
    (hsame : text'.map Char.toLower = text.map Char.toLower) (m : Vocabulary.OperatorMatch) :
    s.Offers text' m ↔ s.Offers text m := by
  rw [offers_iff, offers_iff, Vocabulary.matchWord_eq_some_iff, Vocabulary.matchWord_eq_some_iff]
  simp only [← standsAt_iff, standsAt_congr hsame]

theorem Spelling.offersLogical_congr {s : Spelling} {text text' : List Char}
    (hsame : text'.map Char.toLower = text.map Char.toLower) (found : LogicalOp × Nat) :
    s.OffersLogical text' found ↔ s.OffersLogical text found := by
  constructor
  · rintro ⟨op, hthere⟩
    exact .plain op ((standsAt_congr hsame _).mp hthere)
  · rintro ⟨op, hthere⟩
    exact .plain op ((standsAt_congr hsame _).mpr hthere)

namespace Spelling.WellFormed

open Vocabulary

variable {s : Spelling}

/-- Looking through the words in length order finds the longest offer, in whatever order they were
declared. -/
theorem longest_comparison (h : s.WellFormed) {v : Vocabulary} (hsuffix : v.suffix = s.suffix)
    (hcomparisons : v.comparisons.Perm (CompareOp.all.map fun op => (s.comparison op, op)))
    (hordered : Ordered v.comparisons) (text : List Char) :
    Longest (fun m => (s.comparison m.op).utf8ByteSize) (s.Offers text)
      (v.matchComparison text) := by
  rw [matchComparison, hsuffix]
  apply longest_declared CompareOp.mem_all hcomparisons hordered
  · intro op m
    constructor
    · intro hm
      obtain ⟨rfl, _⟩ := s.matchWord_iff.mp hm
      exact ⟨rfl, Spelling.offers_iff.mpr hm⟩
    · rintro ⟨rfl, hm⟩
      exact Spelling.offers_iff.mp hm
  · intro m m' hm hm' hsize
    exact h.comparison_of_starts hm.starts hm'.starts hsize

theorem longest_logical (h : s.WellFormed) {v : Vocabulary}
    (hlogicals : v.logicals.Perm (LogicalOp.all.map fun op => (s.logical op, op)))
    (hordered : Ordered v.logicals) (text : List Char) :
    Longest (fun found => (s.logical found.1).utf8ByteSize) (s.OffersLogical text)
      (v.matchLogical text) := by
  rw [matchLogical, List.find?_eq_findSome?_guard, List.map_findSome?]
  apply longest_declared LogicalOp.mem_all hlogicals hordered
  · intro op found
    have hat : (startsIgnoringCase (s.logical op).toList text &&
        !splitsWord (s.logical op).length text) = true ↔ StandsAt (s.logical op).toList text := by
      simp [standsAt_iff, WordAt, String.length_toList]
    rw [Function.comp_apply, Option.map_eq_some_iff]
    constructor
    · rintro ⟨entry, hentry, rfl⟩
      obtain ⟨rfl, hthere⟩ := Option.guard_eq_some_iff.mp hentry
      exact ⟨rfl, .plain op (hat.mp hthere)⟩
    · rintro ⟨rfl, ⟨op, hthere⟩⟩
      exact ⟨_, Option.guard_eq_some_iff.mpr ⟨rfl, hat.mpr hthere⟩, rfl⟩
  · rintro _ _ ⟨op, hop⟩ ⟨op', hop'⟩ hsize
    exact h.logical_of_starts (standsAt_iff.mp hop).1 (standsAt_iff.mp hop').1 hsize

end Spelling.WellFormed

/-- The longest operator that can be read at the head of a text is found, and so is the longest
connective. Neither the order in which words have been declared nor the case of letters in the text
has a part in this. -/
theorem Vocabulary.finds_longest (v : CheckedVocabulary) (text : List Char) :
    let s := v.spelling
    (Longest (fun m => (s.comparison m.op).utf8ByteSize) (s.Offers text) (v.matchComparison text) ∧
      ∀ m, v.matchComparison text = some m →
        byteSize (text.take m.length) = (s.comparisonText m.op m.ignoreCase).utf8ByteSize) ∧
    (Longest (fun found => (s.logical found.1).utf8ByteSize) (s.OffersLogical text)
        (v.matchLogical text) ∧
      ∀ found, v.matchLogical text = some found →
        byteSize (text.take found.2) = (s.logical found.1).utf8ByteSize) ∧
    (∀ comparisons logicals,
      comparisons.Perm (CompareOp.all.map fun op => (s.comparison op, op)) →
      logicals.Perm (LogicalOp.all.map fun op => (s.logical op, op)) →
      let declared : Vocabulary := ⟨byLength comparisons, byLength logicals, s.suffix⟩
      declared.matchComparison text = v.matchComparison text ∧
        declared.matchLogical text = v.matchLogical text) ∧
    ∀ text', text'.map Char.toLower = text.map Char.toLower →
      v.matchComparison text' = v.matchComparison text ∧
        v.matchLogical text' = v.matchLogical text := by
  intro s
  have h : s.WellFormed := v.wellFormed
  have hcomparison : ∀ text, Longest (fun m => (s.comparison m.op).utf8ByteSize) (s.Offers text)
      (v.matchComparison text) :=
    h.longest_comparison rfl v.holds.comparisons_perm v.holds.comparisons_ordered
  have hlogical : ∀ text, Longest (fun found => (s.logical found.1).utf8ByteSize)
      (s.OffersLogical text) (v.matchLogical text) :=
    h.longest_logical v.holds.logicals_perm v.holds.logicals_ordered
  refine ⟨⟨hcomparison text, fun m hm => ?_⟩, ⟨hlogical text, fun found hfound => ?_⟩, ?_, ?_⟩
  · exact (((hcomparison text).some_iff m).mp hm).1.byteSize_take
  · exact (((hlogical text).some_iff found).mp hfound).1.byteSize_take
  · intro comparisons logicals hcomparisons hlogicals declared
    have hcomparison' : Longest (fun m => (s.comparison m.op).utf8ByteSize) (s.Offers text)
        (declared.matchComparison text) :=
      h.longest_comparison (v := declared) rfl ((byLength_perm _).trans hcomparisons)
        (byLength_ordered _) text
    have hlogical' : Longest (fun found => (s.logical found.1).utf8ByteSize)
        (s.OffersLogical text) (declared.matchLogical text) :=
      h.longest_logical (v := declared) ((byLength_perm _).trans hlogicals)
        (byLength_ordered _) text
    exact ⟨hcomparison'.unique (hcomparison text), hlogical'.unique (hlogical text)⟩
  · intro text' hsame
    exact ⟨(Longest.congr (Spelling.offers_congr hsame) (hcomparison text')).unique
        (hcomparison text),
      (Longest.congr (Spelling.offersLogical_congr hsame) (hlogical text')).unique (hlogical text)⟩

/-- The longest word is not found where it would split another one. -/
theorem Vocabulary.finds_longest_of_overlapping :
    let s : Spelling := {
      comparison := fun
        | .equals => "="
        | .contains => "=in"
        | op => op.symbol
      suffix := "i" }
    ∃ v, Vocabulary.ofSpelling? s = .ok v ∧
      v.matchComparison "=IN x".toList = some ⟨.contains, false, 3⟩ ∧
      v.matchComparison "=in X".toList = some ⟨.contains, false, 3⟩ ∧
      (∀ m, s.Offers "=IN x".toList m → m ≠ ⟨.contains, false, 3⟩ →
        (s.comparison m.op).utf8ByteSize < 3) ∧
      v.matchComparison "=INx".toList = some ⟨.equals, false, 1⟩ := by
  intro s
  have hok : (Vocabulary.ofSpelling? s).isOk = true := by decide +kernel
  obtain ⟨v, hv⟩ := exists_ok_of_isOk hok
  obtain ⟨⟨hlongest, _⟩, _, _, hcase⟩ := finds_longest v "=IN x".toList
  have hwords := (Vocabulary.of_ofSpelling? hv).trans (ofSpelling_eq_inserted s)
  have hfound : v.matchComparison "=IN x".toList = some ⟨.contains, false, 3⟩ := by
    rw [hwords]
    decide +kernel
  have hsplit : v.matchComparison "=INx".toList = some ⟨.equals, false, 1⟩ := by
    rw [hwords]
    decide +kernel
  have hothers := ((hlongest.some_iff _).mp hfound).2
  rw [CheckedVocabulary.spelling_of_ofSpelling? hv] at hothers
  refine ⟨v, hv, hfound, ?_, hothers, hsplit⟩
  rw [← hfound]
  exact (hcase "=in X".toList (by decide)).1

end RecordFilter
