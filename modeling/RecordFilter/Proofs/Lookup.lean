import Mathlib.Data.List.Sort
import RecordFilter.Proofs.Scanning
import RecordFilter.Query

/-!
Looking words up in a vocabulary. The words are tried from the longest to the shortest, so of all
words that a text starts with the longest one is found. Where a spelling has passed its checks, a
word that is followed by a blank is the longest one there, and it is found as itself.
-/
namespace RecordFilter

/-! Letter case. -/

/-- A capital ASCII letter is moved by a fixed distance, and every other character stays. -/
theorem toLower_cases (c : Char) :
    65 ≤ c.toNat ∧ c.toNat ≤ 90 ∧ c.toLower.toNat = c.toNat + 32 ∨ c.toLower = c := by
  unfold Char.toLower
  split
  · next h =>
    have hlow : 65 ≤ c.toNat := UInt32.le_iff_toNat_le.mp h.1
    have hhigh : c.toNat ≤ 90 := UInt32.le_iff_toNat_le.mp h.2
    refine .inl ⟨hlow, hhigh, ?_⟩
    change (c.val + ('a'.val - 'A'.val)).toNat = _
    rw [UInt32.toNat_add]
    change (c.toNat + 32) % 4294967296 = _
    omega
  · exact .inr rfl

theorem utf8Size_toLower (c : Char) : c.toLower.utf8Size = c.utf8Size := by
  obtain ⟨_, hhigh, heq⟩ | heq := toLower_cases c
  · have hone : ∀ d : Char, d.toNat ≤ 127 → d.utf8Size = 1 := fun d hd =>
      Char.utf8Size_eq_one_iff.mpr (UInt32.le_iff_toNat_le.mpr hd)
    rw [hone c (by omega), hone c.toLower (by omega)]
  · rw [heq]

/-- A character that is no small letter is in no other case than its own. -/
theorem eq_of_toLower_eq {c d : Char} (hd : d.isLower = false) (h : c.toLower = d) : c = d := by
  obtain ⟨hlow, hhigh, heq⟩ | heq := toLower_cases c
  · rw [h] at heq
    have hlow' : 97 ≤ d.toNat := by omega
    have hhigh' : d.toNat ≤ 122 := by omega
    have hlower : d.isLower = true :=
      Bool.and_eq_true_iff.mpr ⟨decide_eq_true hlow', decide_eq_true hhigh'⟩
    rw [hlower] at hd
    cases hd
  · rw [← heq, h]

/-- Sizes do not depend on letter case, so a word and what matches it have the same size. -/
theorem byteSize_map_toLower (cs : List Char) : byteSize (cs.map Char.toLower) = byteSize cs := by
  induction cs with
  | nil => rfl
  | cons c cs ih => rw [List.map_cons, byteSize_cons, byteSize_cons, utf8Size_toLower, ih]

/-- The comparison character by character is one of the texts in small letters. -/
theorem startsIgnoringCase_iff {ps text : List Char} : startsIgnoringCase ps text = true ↔
    ps.map Char.toLower <+: text.map Char.toLower := by
  induction ps generalizing text with
  | nil => simp
  | cons p ps ih =>
    cases text with
    | nil => simp [startsIgnoringCase]
    | cons c cs => simp [startsIgnoringCase, ih, List.cons_prefix_cons]

theorem startsIgnoringCase_append (ps qs text : List Char) :
    startsIgnoringCase (ps ++ qs) text =
      (startsIgnoringCase ps text && startsIgnoringCase qs (text.drop ps.length)) := by
  induction ps generalizing text with
  | nil => simp
  | cons p ps ih =>
    cases text with
    | nil => simp [startsIgnoringCase]
    | cons c cs => simp [startsIgnoringCase, ih, Bool.and_assoc]

/-- A word does not reach over a character that it does not hold in any case. -/
theorem startsIgnoringCase_before {ps word rest : List Char} {d : Char}
    (hd : d.toLower ∉ ps.map Char.toLower)
    (h : startsIgnoringCase ps (word ++ d :: rest) = true) :
    startsIgnoringCase ps word = true := by
  rw [startsIgnoringCase_iff, List.map_append] at h
  rw [startsIgnoringCase_iff]
  have hword := List.prefix_append (word.map Char.toLower) ((d :: rest).map Char.toLower)
  obtain hshort | ⟨more, hmore⟩ := List.prefix_or_prefix_of_prefix h hword
  · exact hshort
  · rw [← hmore, List.prefix_append_right_inj, List.map_cons] at h
    cases more with
    | nil =>
      rw [List.append_nil] at hmore
      exact hmore ▸ List.prefix_rfl
    | cons x more =>
      obtain rfl := (List.cons_prefix_cons.mp h).1
      rw [← hmore] at hd
      simp at hd

/-! Lengths. -/

theorem utf8ByteSize_eq (s : String) : s.utf8ByteSize = byteSize s.toList := by
  rw [byteSize, String.ofList_toList]

theorem byteSize_eq_zero {cs : List Char} : byteSize cs = 0 ↔ cs = [] := by
  rw [byteSize, String.utf8ByteSize_eq_zero_iff, String.ofList_eq_empty_iff]

/-- Of two splits of one text, the one that is further behind splits the rest of the other. -/
theorem split_of_byteSize_le {xs ys xs' ys' : List Char} (h : xs ++ ys = xs' ++ ys')
    (hsize : byteSize xs ≤ byteSize xs') : ∃ more, xs' = xs ++ more ∧ ys = more ++ ys' := by
  obtain ⟨more, hmore⟩ | ⟨more, rfl, rfl⟩ := List.append_eq_append_iff.mp h
  · exact ⟨more, hmore⟩
  · rw [byteSize_append] at hsize
    obtain rfl : more = [] := byteSize_eq_zero.mp (by omega)
    exact ⟨[], by simp, rfl⟩

/-- A text is cut at a number of bytes in one way only. -/
theorem append_eq_of_byteSize {xs ys xs' ys' : List Char} (h : xs ++ ys = xs' ++ ys')
    (hsize : byteSize xs = byteSize xs') : xs = xs' ∧ ys = ys' := by
  obtain ⟨more, rfl, rfl⟩ := split_of_byteSize_le h (Nat.le_of_eq hsize)
  rw [byteSize_append] at hsize
  obtain rfl : more = [] := byteSize_eq_zero.mp (by omega)
  simp

theorem byteSize_le_of_starts {ps text : List Char} (h : startsIgnoringCase ps text = true) :
    byteSize ps ≤ byteSize text := by
  obtain ⟨more, hmore⟩ := startsIgnoringCase_iff.mp h
  rw [← byteSize_map_toLower text, ← hmore, byteSize_append, byteSize_map_toLower]
  exact Nat.le_add_right _ _

theorem size_le_of_starts {s t : String} (h : startsIgnoringCase s.toList t.toList = true) :
    s.utf8ByteSize ≤ t.utf8ByteSize := by
  rw [utf8ByteSize_eq, utf8ByteSize_eq]
  exact byteSize_le_of_starts h

/-- Two words of one length that a text starts with are the same. -/
theorem same_of_starts {s t : String} {text : List Char}
    (hs : startsIgnoringCase s.toList text = true) (ht : startsIgnoringCase t.toList text = true)
    (hsize : s.utf8ByteSize = t.utf8ByteSize) : sameIgnoringCase s t = true := by
  obtain ⟨a, ha⟩ := startsIgnoringCase_iff.mp hs
  obtain ⟨b, hb⟩ := startsIgnoringCase_iff.mp ht
  rw [utf8ByteSize_eq, utf8ByteSize_eq, ← byteSize_map_toLower, ← byteSize_map_toLower t.toList]
    at hsize
  exact sameIgnoringCase_iff.mpr (append_eq_of_byteSize (ha.trans hb.symm) hsize).1

namespace Vocabulary

/-- The order of the words is the one that inserting them one by one gives. -/
theorem byLength_eq_insertionSort {α : Type} (entries : List (String × α)) :
    byLength entries = entries.insertionSort fun a b => noShorter a b = true := by
  induction entries with
  | nil => simp [byLength]
  | cons entry rest ih =>
    obtain ⟨before, after, hwhole, hrest, hbefore⟩ :=
      List.mergeSort_cons noShorter_trans noShorter_total entry rest
    have hordered := List.pairwise_mergeSort noShorter_trans noShorter_total (entry :: rest)
    rw [hwhole, List.pairwise_append] at hordered
    have hpassed : ∀ b ∈ before, decide (¬ noShorter entry b = true) = true := by
      simpa using hbefore
    rw [List.insertionSort_cons, ← ih, byLength, byLength, hwhole, hrest,
      List.orderedInsert_eq_take_drop, List.takeWhile_append_of_pos hpassed,
      List.dropWhile_append_of_pos hpassed]
    cases after with
    | nil => simp
    | cons next after =>
      have hnext := (List.pairwise_cons.mp hordered.2.1).1 next List.mem_cons_self
      simp [hnext]

def inserted (s : Spelling) : Vocabulary where
  comparisons := (CompareOp.all.map fun op => (s.comparison op, op)).insertionSort
    fun a b => noShorter a b = true
  logicals := (LogicalOp.all.map fun op => (s.logical op, op)).insertionSort
    fun a b => noShorter a b = true
  suffix := s.suffix

/-- Scans of fixed texts are computed with words that are put in order one by one. -/
theorem ofSpelling_eq_inserted (s : Spelling) : ofSpelling s = inserted s := by
  rw [ofSpelling, byLength_eq_insertionSort, byLength_eq_insertionSort, inserted]

theorem standard_eq_inserted : standard = inserted .standard := ofSpelling_eq_inserted .standard

def Ordered {α : Type} (entries : List (String × α)) : Prop :=
  entries.Pairwise fun a b => b.1.utf8ByteSize ≤ a.1.utf8ByteSize

/-- An entry is found if every other one for which something is found has a shorter word: those
before it are not shorter, so nothing is found for them. -/
theorem findSome?_of_longest {α β : Type} {entries : List (String × α)}
    (hordered : Ordered entries) {entry : String × α} (hmem : entry ∈ entries)
    {f : String × α → Option β} {b : β} (hf : f entry = some b)
    (hlongest : ∀ other ∈ entries, (f other).isSome = true → other ≠ entry →
      other.1.utf8ByteSize < entry.1.utf8ByteSize) : entries.findSome? f = some b := by
  induction entries with
  | nil => cases hmem
  | cons other rest ih =>
    obtain ⟨hother, hrest⟩ := List.pairwise_cons.mp hordered
    by_cases heq : other = entry
    · rw [heq, List.findSome?_cons, hf]
    · have hmem : entry ∈ rest := by
        obtain rfl | hmem := List.mem_cons.mp hmem
        · exact absurd rfl heq
        · exact hmem
      have hnone : f other = none := by
        cases hfo : f other with
        | none => rfl
        | some x =>
          have hle := hother entry hmem
          have hlt := hlongest other List.mem_cons_self (by simp [hfo]) heq
          omega
      rw [List.findSome?_cons, hnone]
      exact ih hrest hmem fun x hx => hlongest x (List.mem_cons_of_mem other hx)

/-- No other entry for which something is found has a longer word than the one that is found. -/
theorem longest_of_findSome? {α β : Type} {entries : List (String × α)}
    (hordered : Ordered entries) {f : String × α → Option β} {b : β}
    (h : entries.findSome? f = some b) :
    ∃ entry ∈ entries, f entry = some b ∧ ∀ other ∈ entries, (f other).isSome = true →
      other.1.utf8ByteSize ≤ entry.1.utf8ByteSize := by
  induction entries with
  | nil => cases h
  | cons entry rest ih =>
    obtain ⟨hentry, hrest⟩ := List.pairwise_cons.mp hordered
    cases hf : f entry with
    | some x =>
      rw [List.findSome?_cons, hf] at h
      cases h
      refine ⟨entry, List.mem_cons_self, hf, fun other hother _ => ?_⟩
      obtain rfl | hother := List.mem_cons.mp hother
      · exact Nat.le_refl _
      · exact hentry other hother
    | none =>
      rw [List.findSome?_cons, hf] at h
      obtain ⟨found, hmem, hfound, hlongest⟩ := ih hrest h
      refine ⟨found, List.mem_cons_of_mem entry hmem, hfound, fun other hother hsome => ?_⟩
      obtain rfl | hother := List.mem_cons.mp hother
      · simp [hf] at hsome
      · exact hlongest other hother hsome

theorem mem_declared {α : Type} {word : α → String} {ops : List α} (hall : ∀ op, op ∈ ops)
    {entries : List (String × α)} (hentries : entries.Perm (ops.map fun op => (word op, op)))
    {entry : String × α} : entry ∈ entries ↔ entry.1 = word entry.2 := by
  rw [hentries.mem_iff, List.mem_map]
  constructor
  · rintro ⟨op, _, rfl⟩
    rfl
  · intro hword
    exact ⟨entry.2, hall entry.2, by rw [← hword]⟩

/-! Words at the head of a text. -/

/-- The text starts with the word, in letters of either case, and no word is split by a cut after
it. -/
def WordAt (word text : List Char) : Prop :=
  startsIgnoringCase word text = true ∧ splitsWord word.length text = false

instance (word text : List Char) : Decidable (WordAt word text) :=
  inferInstanceAs (Decidable (_ ∧ _))

theorem startsIgnoringCase_self (word rest : List Char) :
    startsIgnoringCase word (word ++ rest) = true := by
  rw [startsIgnoringCase_iff, List.map_append]
  exact List.prefix_append _ _

theorem wordAt_self (word : List Char) : WordAt word word := by
  refine ⟨by simpa using startsIgnoringCase_self word [], ?_⟩
  simp [splitsWord]

theorem byteSize_le_of_wordAt {word text : List Char} (h : WordAt word text) :
    byteSize word ≤ byteSize text := byteSize_le_of_starts h.1

theorem matchWord_eq_some_iff {suffix word text : List Char} {op : CompareOp} {m : OperatorMatch} :
    matchWord suffix word op text = some m ↔
      WordAt (word ++ suffix) text ∧ m = ⟨op, true, (word ++ suffix).length⟩ ∨
      ¬ WordAt (word ++ suffix) text ∧ WordAt word text ∧ m = ⟨op, false, word.length⟩ := by
  have hwhole : WordAt (word ++ suffix) text ↔ startsIgnoringCase word text = true ∧
      (startsIgnoringCase suffix (text.drop word.length) &&
        !splitsWord (word.length + suffix.length) text) = true := by
    simp [WordAt, startsIgnoringCase_append, and_assoc]
  rw [hwhole, WordAt, List.length_append]
  unfold matchWord
  by_cases hword : startsIgnoringCase word text = true
  · by_cases hsuffix : (startsIgnoringCase suffix (text.drop word.length) &&
        !splitsWord (word.length + suffix.length) text) = true
    · rw [if_pos hword, if_pos hsuffix]
      simp only [hword, hsuffix, and_self, true_and, not_true_eq_false, false_and, or_false,
        Option.some.injEq]
      exact eq_comm
    · rw [if_pos hword, if_neg hsuffix]
      cases hsplit : splitsWord word.length text <;> simp [hword, hsuffix, eq_comm (a := m)]
  · simp [hword]

/-- A character that has no other case and is not in a word is in it in no case. -/
theorem toLower_not_mem {cs : List Char} {d : Char} (hlower : d.isLower = false)
    (hcase : d.toLower = d) (h : d ∉ cs) : d.toLower ∉ cs.map Char.toLower := by
  intro hmem
  obtain ⟨c, hc, heq⟩ := List.mem_map.mp hmem
  rw [hcase] at heq
  rw [eq_of_toLower_eq hlower heq] at hc
  exact h hc

theorem startsIgnoringCase_eq_false {word : List Char} {d : Char} (hne : word ≠ [])
    (hd : d.toLower ∉ word.map Char.toLower) (rest : List Char) :
    startsIgnoringCase word (d :: rest) = false := by
  cases word with
  | nil => exact absurd rfl hne
  | cons c cs =>
    have hhead : c.toLower ≠ d.toLower := fun heq => hd (by simp [heq])
    simp [startsIgnoringCase, hhead]

section Seam

variable {d : Char}

/-- A character that is not in the word ends whatever of the word stands before it. -/
theorem startsIgnoringCase_seam {word : List Char} (hd : d.toLower ∉ word.map Char.toLower)
    (text after : List Char) :
    startsIgnoringCase word (text ++ d :: after) = startsIgnoringCase word text := by
  rw [Bool.eq_iff_iff]
  refine ⟨startsIgnoringCase_before hd, fun h => ?_⟩
  rw [startsIgnoringCase_iff] at h ⊢
  rw [List.map_append]
  exact h.trans (List.prefix_append _ _)

/-- Behind a character that no word goes on with, no word before it is split. -/
theorem splitsWord_seam (hd : isWordChar d = false) {n : Nat} {text : List Char}
    (hn : n ≤ text.length) (after : List Char) :
    splitsWord n (text ++ d :: after) = splitsWord n text := by
  unfold splitsWord
  rw [List.take_append_of_le_length hn, List.drop_append_of_le_length hn]
  cases text.drop n with
  | nil => cases (text.take n).getLast? <;> simp [hd]
  | cons => rfl

/-- A word is not at the head of a text for the sake of what comes after a break. -/
theorem wordAt_seam {word : List Char} (hword : d.toLower ∉ word.map Char.toLower)
    (hd : isWordChar d = false) (text after : List Char) :
    WordAt word (text ++ d :: after) ↔ WordAt word text := by
  rw [WordAt, startsIgnoringCase_seam hword]
  refine and_congr_right fun hstart => ?_
  rw [splitsWord_seam hd (length_le_of_startsIgnoringCase hstart)]

end Seam

end Vocabulary

theorem Spelling.toList_comparisonText (s : Spelling) (op : CompareOp) (ignoreCase : Bool) :
    (s.comparisonText op ignoreCase).toList =
      (s.comparison op).toList ++ if ignoreCase then s.suffix.toList else [] := by
  cases ignoreCase <;> simp [comparisonText]

theorem Spelling.toList_comparisonText_false (s : Spelling) (op : CompareOp) :
    (s.comparisonText op false).toList = (s.comparison op).toList := by
  rw [toList_comparisonText, if_neg Bool.false_ne_true, List.append_nil]

/-- Of the two texts of an operator the longer one has the suffix. -/
theorem Spelling.suffixed_of_length_lt (s : Spelling) {op : CompareOp} {shorter longer : Bool}
    (h : (s.comparisonText op shorter).toList.length < (s.comparisonText op longer).toList.length) :
    shorter = false ∧ longer = true := by
  rw [s.toList_comparisonText, s.toList_comparisonText, List.length_append, List.length_append,
    Nat.add_lt_add_iff_left] at h
  cases longer with
  | false => exact absurd h (Nat.not_lt_zero _)
  | true =>
    cases shorter with
    | false => exact ⟨rfl, rfl⟩
    | true => exact absurd h (Nat.lt_irrefl _)

/-- How an operator matches a text. -/
theorem Spelling.matchWord_iff (s : Spelling) {op : CompareOp} {text : List Char}
    {m : Vocabulary.OperatorMatch} :
    Vocabulary.matchWord s.suffix.toList (s.comparison op).toList op text = some m ↔ m.op = op ∧
      m.length = (s.comparisonText op m.ignoreCase).length ∧
      Vocabulary.WordAt (s.comparisonText op m.ignoreCase).toList text ∧
      (m.ignoreCase = false → ¬ Vocabulary.WordAt (s.comparisonText op true).toList text) := by
  obtain ⟨op', ignoreCase, length⟩ := m
  rw [Vocabulary.matchWord_eq_some_iff, ← String.length_toList, s.toList_comparisonText,
    s.toList_comparisonText]
  simp only [if_true, Vocabulary.OperatorMatch.mk.injEq]
  cases ignoreCase with
  | false =>
    simp only [Bool.false_eq_true, if_false, List.append_nil, false_and, and_false, false_or,
      true_and, forall_const]
    constructor
    · rintro ⟨hwhole, hthere, hop, hlength⟩
      exact ⟨hop, hlength, hthere, hwhole⟩
    · rintro ⟨hop, hlength, hthere, hwhole⟩
      exact ⟨hwhole, hthere, hop, hlength⟩
  | true =>
    simp only [if_true, Bool.true_eq_false, false_and, and_false, or_false, true_and,
      false_implies, and_true]
    constructor
    · rintro ⟨hthere, hop, hlength⟩
      exact ⟨hop, hlength, hthere⟩
    · rintro ⟨hop, hlength, hthere⟩
      exact ⟨hthere, hop, hlength⟩

theorem Spelling.matchWord_isSome (s : Spelling) {op : CompareOp} {text : List Char}
    (h : ∃ ignoreCase, Vocabulary.WordAt (s.comparisonText op ignoreCase).toList text) :
    (Vocabulary.matchWord s.suffix.toList (s.comparison op).toList op text).isSome = true := by
  obtain ⟨ignoreCase, hthere⟩ := h
  rw [Option.isSome_iff_exists]
  by_cases hwhole : Vocabulary.WordAt (s.comparisonText op true).toList text
  · exact ⟨⟨op, true, (s.comparisonText op true).length⟩, s.matchWord_iff.mpr
      ⟨rfl, rfl, hwhole, nofun⟩⟩
  · obtain rfl : ignoreCase = false := by
      cases ignoreCase with
      | false => rfl
      | true => exact absurd hthere hwhole
    exact ⟨⟨op, false, (s.comparisonText op false).length⟩, s.matchWord_iff.mpr
      ⟨rfl, rfl, hthere, fun _ => hwhole⟩⟩

namespace Spelling.WellFormed

open Vocabulary

variable {s : Spelling}

theorem word_ne_nil (h : s.WellFormed) (role : WordRole) : (s.word role).toList ≠ [] :=
  fun hnil => h.nonempty role (String.toList_eq_nil_iff.mp hnil)

theorem not_break (h : s.WellFormed) (role : WordRole) {c : Char}
    (hc : c ∈ (s.word role).toList) : isBreak c = false := by
  rw [← Bool.not_eq_true]
  exact fun hbreak => h.plain role c hc (role.forbids_of_separates hbreak)

theorem exists_cons (h : s.WellFormed) (role : WordRole) :
    ∃ c cs, (s.word role).toList = c :: cs ∧ isBlank c = false := by
  obtain ⟨c, cs, hword⟩ := List.exists_cons_of_ne_nil (h.word_ne_nil role)
  have hc := h.not_break role (hword ▸ List.mem_cons_self)
  exact ⟨c, cs, hword, (Bool.or_eq_false_iff.mp hc).1⟩

/-- No word holds a blank or a reserved character. -/
theorem break_not_mem (h : s.WellFormed) (role : WordRole) {d : Char} (hd : isBreak d = true) :
    d.toLower ∉ (s.word role).toList.map Char.toLower := by
  have hcase : (!d.isLower && d.toLower == d) = true :=
    of_break (p := fun d => !d.isLower && d.toLower == d) (by decide +kernel) (by decide) hd
  simp only [Bool.and_eq_true, Bool.not_eq_true', beq_iff_eq] at hcase
  refine toLower_not_mem hcase.1 hcase.2 fun hmem => ?_
  rw [h.not_break role hmem] at hd
  cases hd

/-- No word of a comparison operator has a blank or a punctuation character in it. -/
theorem break_not_mem_comparisonText (h : s.WellFormed) (op : CompareOp) (ignoreCase : Bool)
    {d : Char} (hd : isBreak d = true) :
    d.toLower ∉ (s.comparisonText op ignoreCase).toList.map Char.toLower := by
  have hword : d.toLower ∉ (s.comparison op).toList.map Char.toLower :=
    h.break_not_mem (.comparison op) hd
  have hsuffix : d.toLower ∉ s.suffix.toList.map Char.toLower := h.break_not_mem .suffix hd
  rw [s.toList_comparisonText, List.map_append, List.mem_append]
  cases ignoreCase with
  | false => simpa using hword
  | true => exact not_or.mpr ⟨hword, hsuffix⟩

/-- Two operator words of one length are not at the head of the same text. -/
theorem role_of_starts (h : s.WellFormed) {role role' : WordRole} (hrole : role ≠ .suffix)
    (hrole' : role' ≠ .suffix) {text : List Char}
    (hstarts : startsIgnoringCase (s.word role).toList text = true)
    (hstarts' : startsIgnoringCase (s.word role').toList text = true)
    (hsize : (s.word role).utf8ByteSize = (s.word role').utf8ByteSize) : role = role' := by
  by_contra hne
  exact h.distinct role hrole role' hrole' hne
    (sameIgnoringCase_iff.mp (same_of_starts hstarts hstarts' hsize))

/-- Two words of one size at the head of one text differ in letter case only, so they are of one
operator. -/
theorem comparison_of_starts (h : s.WellFormed) {op op' : CompareOp} {text : List Char}
    (hop : startsIgnoringCase (s.comparison op).toList text = true)
    (hop' : startsIgnoringCase (s.comparison op').toList text = true)
    (hsize : (s.comparison op).utf8ByteSize = (s.comparison op').utf8ByteSize) : op = op' :=
  WordRole.comparison.inj (h.role_of_starts nofun nofun hop hop' hsize)

theorem logical_of_starts (h : s.WellFormed) {op op' : LogicalOp} {text : List Char}
    (hop : startsIgnoringCase (s.logical op).toList text = true)
    (hop' : startsIgnoringCase (s.logical op').toList text = true)
    (hsize : (s.logical op).utf8ByteSize = (s.logical op').utf8ByteSize) : op = op' :=
  WordRole.logical.inj (h.role_of_starts nofun nofun hop hop' hsize)

/-- No word starts with a reserved character. -/
theorem word_not_starts (h : s.WellFormed) (role : WordRole) {c : Char} (hc : isReserved c = true)
    (rest : List Char) : startsIgnoringCase (s.word role).toList (c :: rest) = false :=
  startsIgnoringCase_eq_false (h.word_ne_nil role) (h.break_not_mem role (isBreak_of_reserved hc))
    rest

end Spelling.WellFormed

theorem Spelling.starts_of_wordAt {s : Spelling} {op : CompareOp} {ignoreCase : Bool}
    {text : List Char} (h : Vocabulary.WordAt (s.comparisonText op ignoreCase).toList text) :
    startsIgnoringCase (s.comparison op).toList text = true := by
  have hstart := h.1
  rw [s.toList_comparisonText, startsIgnoringCase_append, Bool.and_eq_true] at hstart
  exact hstart.1

/-! What is found in a checked vocabulary. -/

namespace CheckedVocabulary

open Vocabulary

variable {v : CheckedVocabulary}

/-- A vocabulary that was checked has just the words of its settings. -/
theorem mem_comparisons {entry : String × CompareOp} :
    entry ∈ v.comparisons ↔ entry.1 = v.spelling.comparison entry.2 :=
  mem_declared CompareOp.mem_all v.holds.comparisons_perm

theorem mem_logicals {entry : String × LogicalOp} :
    entry ∈ v.logicals ↔ entry.1 = v.spelling.logical entry.2 :=
  mem_declared LogicalOp.mem_all v.holds.logicals_perm

/-- The comparison operator that is found is the longest one that is there, with its suffix if that
is there as well. -/
theorem matchComparison_eq_some_iff (v : CheckedVocabulary) {text : List Char} {m : OperatorMatch} :
    v.matchComparison text = some m ↔
      (m.length = (v.spelling.comparisonText m.op m.ignoreCase).length ∧
        WordAt (v.spelling.comparisonText m.op m.ignoreCase).toList text ∧
        (m.ignoreCase = false → ¬ WordAt (v.spelling.comparisonText m.op true).toList text)) ∧
      ∀ op ignoreCase, WordAt (v.spelling.comparisonText op ignoreCase).toList text →
        (v.spelling.comparison op).utf8ByteSize ≤ (v.spelling.comparison m.op).utf8ByteSize := by
  have hsuffix : v.suffix = v.spelling.suffix := rfl
  rw [matchComparison, hsuffix]
  constructor
  · intro hm
    obtain ⟨⟨word, op⟩, hmem, hfound, hlongest⟩ :=
      longest_of_findSome? v.holds.comparisons_ordered hm
    obtain rfl : word = v.spelling.comparison op := mem_comparisons.mp hmem
    obtain ⟨rfl, hfound⟩ := v.spelling.matchWord_iff.mp hfound
    refine ⟨hfound, fun op ignoreCase hop => ?_⟩
    exact hlongest (v.spelling.comparison op, op) (mem_comparisons.mpr rfl)
      (v.spelling.matchWord_isSome ⟨_, hop⟩)
  · rintro ⟨hfound, hlongest⟩
    have hmem : (v.spelling.comparison m.op, m.op) ∈ v.comparisons := mem_comparisons.mpr rfl
    refine findSome?_of_longest v.holds.comparisons_ordered hmem
      (v.spelling.matchWord_iff.mpr ⟨rfl, hfound⟩) ?_
    rintro ⟨word, op⟩ hmem hsome hne
    obtain rfl : word = v.spelling.comparison op := mem_comparisons.mp hmem
    obtain ⟨m', hm'⟩ := Option.isSome_iff_exists.mp hsome
    obtain ⟨rfl, _, hthere, _⟩ := v.spelling.matchWord_iff.mp hm'
    refine Nat.lt_of_le_of_ne (hlongest _ _ hthere) fun hsize => hne ?_
    rw [v.wellFormed.comparison_of_starts (Spelling.starts_of_wordAt hthere)
      (Spelling.starts_of_wordAt hfound.2.1) hsize]

/-- The connective that is found is the longest one that is there. -/
theorem matchLogical_eq_some_iff (v : CheckedVocabulary) {text : List Char} {op : LogicalOp}
    {length : Nat} : v.matchLogical text = some (op, length) ↔
      (length = (v.spelling.logical op).length ∧ WordAt (v.spelling.logical op).toList text) ∧
      ∀ op', WordAt (v.spelling.logical op').toList text →
        (v.spelling.logical op').utf8ByteSize ≤ (v.spelling.logical op).utf8ByteSize := by
  have hat : ∀ op', (startsIgnoringCase (v.spelling.logical op').toList text &&
      !splitsWord (v.spelling.logical op').length text) = true ↔
        WordAt (v.spelling.logical op').toList text := by
    simp [WordAt, String.length_toList]
  rw [matchLogical, List.find?_eq_findSome?_guard, Option.map_eq_some_iff]
  constructor
  · rintro ⟨found, hfind, heq⟩
    obtain ⟨⟨word, op'⟩, hmem, hfound, hlongest⟩ :=
      longest_of_findSome? v.holds.logicals_ordered hfind
    obtain rfl : word = v.spelling.logical op' := mem_logicals.mp hmem
    obtain ⟨rfl, hthere⟩ := Option.guard_eq_some_iff.mp hfound
    cases heq
    refine ⟨⟨rfl, (hat op').mp hthere⟩, fun other hother => ?_⟩
    refine hlongest (v.spelling.logical other, other) (mem_logicals.mpr rfl) ?_
    rw [Option.isSome_guard]
    exact (hat other).mpr hother
  · rintro ⟨⟨rfl, hthere⟩, hlongest⟩
    have hmem : (v.spelling.logical op, op) ∈ v.logicals := mem_logicals.mpr rfl
    refine ⟨(v.spelling.logical op, op), findSome?_of_longest v.holds.logicals_ordered hmem
      (Option.guard_eq_some_iff.mpr ⟨rfl, (hat op).mpr hthere⟩) ?_, rfl⟩
    rintro ⟨word, other⟩ hmem hsome hne
    obtain rfl : word = v.spelling.logical other := mem_logicals.mp hmem
    rw [Option.isSome_guard] at hsome
    have hother := (hat other).mp hsome
    refine Nat.lt_of_le_of_ne (hlongest other hother) fun hsize => hne ?_
    rw [v.wellFormed.logical_of_starts hother.1 hthere.1 hsize]

/-- What comes after a text and a break does not count. -/
theorem matchComparison_seam (v : CheckedVocabulary) {d : Char} (hd : isBreak d = true)
    (text after : List Char) :
    v.matchComparison (text ++ d :: after) = v.matchComparison text := by
  refine Option.ext fun m => ?_
  have hat : ∀ op ignoreCase,
      WordAt (v.spelling.comparisonText op ignoreCase).toList (text ++ d :: after) ↔
        WordAt (v.spelling.comparisonText op ignoreCase).toList text := fun op ignoreCase =>
    wordAt_seam (v.wellFormed.break_not_mem_comparisonText op ignoreCase hd)
      (not_wordChar_of_break hd) text after
  rw [v.matchComparison_eq_some_iff, v.matchComparison_eq_some_iff]
  simp only [hat]

theorem matchLogical_seam (v : CheckedVocabulary) {d : Char} (hd : isBreak d = true)
    (text after : List Char) :
    v.matchLogical (text ++ d :: after) = v.matchLogical text := by
  refine Option.ext fun m => ?_
  have hat : ∀ op, WordAt (v.spelling.logical op).toList (text ++ d :: after) ↔
      WordAt (v.spelling.logical op).toList text := fun op =>
    wordAt_seam (v.wellFormed.break_not_mem (.logical op) hd) (not_wordChar_of_break hd) text after
  rw [v.matchLogical_eq_some_iff, v.matchLogical_eq_some_iff]
  simp only [hat]

/-- An operator that is found in its own text is read back before a blank. -/
theorem readsComparison_of_found (v : CheckedVocabulary) {op : CompareOp} {ignoreCase : Bool}
    (hfound : v.matchComparison (v.spelling.comparisonText op ignoreCase).toList =
      some ⟨op, ignoreCase, (v.spelling.comparisonText op ignoreCase).length⟩) :
    v.ReadsComparison v.spelling op ignoreCase := by
  obtain ⟨c, cs, hword, hc⟩ := v.wellFormed.exists_cons (.comparison op)
  change (v.spelling.comparison op).toList = c :: cs at hword
  have htext := v.spelling.toList_comparisonText op ignoreCase
  rw [hword, List.cons_append] at htext
  refine ⟨c, _, htext, hc, fun rest => ?_⟩
  rw [← htext, v.matchComparison_seam rfl, hfound, ← String.length_toList, htext, List.length_cons]

/-- Before a blank an operator without its suffix is read as itself, since there is no room for the
suffix. -/
theorem readsComparison (v : CheckedVocabulary) (op : CompareOp) :
    v.ReadsComparison v.spelling op false := by
  have htext := v.spelling.toList_comparisonText_false op
  refine v.readsComparison_of_found (v.matchComparison_eq_some_iff.mpr
    ⟨⟨rfl, wordAt_self _, fun _ hwhole => ?_⟩, fun op' ignoreCase hop' => ?_⟩)
  · have hsize : byteSize (v.spelling.comparisonText op true).toList ≤
        byteSize (v.spelling.comparisonText op false).toList := byteSize_le_of_wordAt hwhole
    have hsuffix : byteSize v.spelling.suffix.toList ≠ 0 := fun hzero =>
      v.wellFormed.word_ne_nil .suffix (byteSize_eq_zero.mp hzero)
    rw [htext, v.spelling.toList_comparisonText, if_pos rfl, byteSize_append] at hsize
    omega
  · rw [htext] at hop'
    exact size_le_of_starts (Spelling.starts_of_wordAt hop')

/-- A connective is found as itself before a blank. -/
theorem matchLogical_eq (v : CheckedVocabulary) (op : LogicalOp) (rest : List Char) :
    v.matchLogical ((v.spelling.logical op).toList ++ ' ' :: rest) =
      some (op, (v.spelling.logical op).length) := by
  rw [v.matchLogical_seam rfl]
  exact v.matchLogical_eq_some_iff.mpr
    ⟨⟨rfl, wordAt_self _⟩, fun op' hop' => size_le_of_starts hop'.1⟩

/-- No word begins with punctuation or a quote. -/
theorem matchComparison_reserved (v : CheckedVocabulary) {c : Char} (hc : isReserved c = true)
    (rest : List Char) : v.matchComparison (c :: rest) = none := by
  rw [Option.eq_none_iff_forall_ne_some]
  intro m hm
  have hstart := Spelling.starts_of_wordAt (v.matchComparison_eq_some_iff.mp hm).1.2.1
  have hnot := v.wellFormed.word_not_starts (.comparison m.op) hc rest
  exact Bool.false_ne_true (hnot.symm.trans hstart)

theorem matchLogical_reserved (v : CheckedVocabulary) {c : Char} (hc : isReserved c = true)
    (rest : List Char) : v.matchLogical (c :: rest) = none := by
  rw [Option.eq_none_iff_forall_ne_some]
  rintro ⟨op, length⟩ hm
  have hstart := (v.matchLogical_eq_some_iff.mp hm).1.2.1
  have hnot := v.wellFormed.word_not_starts (.logical op) hc rest
  exact Bool.false_ne_true (hnot.symm.trans hstart)

theorem readsConnectives (v : CheckedVocabulary) : v.ReadsConnectives v.spelling where
  word op := by
    obtain ⟨c, cs, hword, hc⟩ := v.wellFormed.exists_cons (.logical op)
    change (v.spelling.logical op).toList = c :: cs at hword
    refine ⟨c, cs, hword, hc, fun rest => ?_⟩
    have hfound := v.matchLogical_eq op rest
    rwa [← String.length_toList, hword] at hfound
  reserved _ hc rest := v.matchLogical_reserved hc rest

end CheckedVocabulary

/-! Fixed texts. -/

/-- What a fixed text is read as is computed with the words of the spelling put in order one by
one. -/
theorem Condition.exists_ofText_eq {α : Type} (s : Spelling) (text : String) (f : Condition → α)
    (a : α) (h : (Condition.ofText (.inserted s) text).toOption.map f = some a) :
    ∃ n, Condition.ofText (.ofSpelling s) text = .ok n ∧ f n = a := by
  rw [← Vocabulary.ofSpelling_eq_inserted] at h
  cases hn : Condition.ofText (.ofSpelling s) text with
  | error e => simp [hn, Except.toOption] at h
  | ok n => exact ⟨n, rfl, by simpa [hn, Except.toOption] using h⟩

/-- With the standard words, a text is read by the vocabulary that reduces in proofs. -/
theorem Predicate.ofText_standard (configuration : Configuration)
    (h : configuration.vocabulary = .standard) (shape : Shape) (text : String) :
    Predicate.ofText configuration shape text = (Condition.ofText (.inserted .standard) text).bind
      (configuration.settings.compile shape) := by
  rw [← Vocabulary.standard_eq_inserted, Predicate.ofText, h]
  rfl

end RecordFilter
