import RecordFilter.Settings
import RecordFilter.Text.Character

/-!
The operator words of one configuration, ordered for lookup. Longer words come first, so that the
longest word at a place in the text is the one that is found there.
-/
namespace RecordFilter

/-- Quotes, brackets and commas carry structure and never belong to a word. -/
def isReserved (c : Char) : Bool := ['"', '(', ')', '[', ']', ','].contains c

structure Vocabulary where
  comparisons : List (String × CompareOp)
  logicals : List (String × LogicalOp)
  suffix : String

namespace Vocabulary

def noShorter {α : Type} (a b : String × α) : Bool := b.1.utf8ByteSize ≤ a.1.utf8ByteSize

theorem noShorter_iff {α : Type} {a b : String × α} :
    noShorter a b = true ↔ b.1.utf8ByteSize ≤ a.1.utf8ByteSize := decide_eq_true_iff

theorem noShorter_trans {α : Type} (a b c : String × α) (hab : noShorter a b = true)
    (hbc : noShorter b c = true) : noShorter a c = true :=
  noShorter_iff.mpr (Nat.le_trans (noShorter_iff.mp hbc) (noShorter_iff.mp hab))

theorem noShorter_total {α : Type} (a b : String × α) :
    (noShorter a b || noShorter b a) = true := by
  rw [Bool.or_eq_true, noShorter_iff, noShorter_iff]
  exact Nat.le_total _ _

/-- Longer words first; words of one length keep their order. -/
def byLength {α : Type} (entries : List (String × α)) : List (String × α) :=
  entries.mergeSort noShorter

theorem byLength_perm {α : Type} (entries : List (String × α)) :
    (byLength entries).Perm entries := List.mergeSort_perm _ _

theorem byLength_ordered {α : Type} (entries : List (String × α)) :
    (byLength entries).Pairwise fun a b => b.1.utf8ByteSize ≤ a.1.utf8ByteSize :=
  (List.pairwise_mergeSort noShorter_trans noShorter_total entries).imp noShorter_iff.mp

/-- The words of a spelling, not checked. -/
def ofSpelling (s : Spelling) : Vocabulary where
  comparisons := byLength (CompareOp.all.map fun op => (s.comparison op, op))
  logicals := byLength (LogicalOp.all.map fun op => (s.logical op, op))
  suffix := s.suffix

def standard : Vocabulary := ofSpelling .standard

/-- The configured word of a comparison operator. -/
def comparisonWord (v : Vocabulary) (op : CompareOp) : String :=
  match v.comparisons.find? fun entry => entry.2 == op with
  | some entry => entry.1
  | none => op.symbol

def logicalWord (v : Vocabulary) (op : LogicalOp) : String :=
  match v.logicals.find? fun entry => entry.2 == op with
  | some entry => entry.1
  | none => op.symbol

/-- The texts of all operators in this vocabulary. -/
def spelling (v : Vocabulary) : Spelling where
  comparison := v.comparisonWord
  logical := v.logicalWord
  suffix := v.suffix

/-- Whether a cut after `n` characters falls between two characters of one word. -/
def splitsWord (n : Nat) (text : List Char) : Bool :=
  match (text.take n).getLast?, (text.drop n).head? with
  | some before, some after => isWordChar before && isWordChar after
  | _, _ => false

/-- A comparison operator at the head of a text, with the number of characters it takes. -/
structure OperatorMatch where
  op : CompareOp
  ignoreCase : Bool
  length : Nat
  deriving DecidableEq

/-- The operator `op` spelled `word`, if `text` starts with it. The suffix goes along when it
follows, unless a word would be split by that. -/
def matchWord (suffix word : List Char) (op : CompareOp) (text : List Char) :
    Option OperatorMatch :=
  if startsIgnoringCase word text then
    if startsIgnoringCase suffix (text.drop word.length)
        && !splitsWord (word.length + suffix.length) text then
      some ⟨op, true, word.length + suffix.length⟩
    else if splitsWord word.length text then none
    else some ⟨op, false, word.length⟩
  else none

def matchComparison (v : Vocabulary) (text : List Char) : Option OperatorMatch :=
  v.comparisons.findSome? fun entry => matchWord v.suffix.toList entry.1.toList entry.2 text

/-- A connective at the head of a text, with the number of characters it takes. -/
def matchLogical (v : Vocabulary) (text : List Char) : Option (LogicalOp × Nat) :=
  (v.logicals.find? fun entry =>
    startsIgnoringCase entry.1.toList text && !splitsWord entry.1.length text).map
    fun entry => (entry.2, entry.1.length)

end Vocabulary

end RecordFilter
