import Mathlib.Data.List.TakeWhile
import RecordFilter.Proofs.Slices
import RecordFilter.Proofs.Spans

/-!
Scans that reach the end of their text, token by token: the blanks in front of a token, the token
and what is taken after it. Blanks in front of a text are no tokens, and a text that starts further
on has the same tokens further on.
-/
namespace RecordFilter

/-- From a text that starts at byte `low` the scan takes these tokens, and then the text ends. -/
inductive Takes (v : Vocabulary) : Expectancy → Nat → List Char → List Token → Prop
  | ended (e : Expectancy) (low : Nat) {gap : List Char} :
    (∀ c ∈ gap, isBlank c = true) → Takes v e low gap []
  | token {e : Expectancy} {low start stop : Nat} {gap tail rest : List Char} {c : Char}
      {kind : TokenKind} {ts : List Token} :
    (∀ c ∈ gap, isBlank c = true) → isBlank c = false →
    readLexeme v e c (tail ++ rest) = .ok (kind, tail.length) →
    start = low + byteSize gap → stop = start + byteSize (c :: tail) →
    Takes v (.after kind) stop rest ts →
    Takes v e low (gap ++ c :: (tail ++ rest)) (⟨kind, ⟨start, stop⟩⟩ :: ts)

theorem dropWhile_gap {gap : List Char} (hgap : ∀ c ∈ gap, isBlank c = true) {c : Char}
    (hc : isBlank c = false) (rest : List Char) :
    (gap ++ c :: rest).dropWhile isBlank = c :: rest := by
  rw [List.dropWhile_append_of_pos hgap, List.dropWhile_cons_of_neg (by simp [hc])]

theorem takeWhile_gap {gap : List Char} (hgap : ∀ c ∈ gap, isBlank c = true) {c : Char}
    (hc : isBlank c = false) (rest : List Char) : (gap ++ c :: rest).takeWhile isBlank = gap :=
  takeWhile_append_eq hgap (by simp [hc])

/-- A scan ends with the end of the input, wherever the last gap ends. -/
theorem scanFrom_of_takes {v : Vocabulary} {e : Expectancy} {low : Nat} {text : List Char}
    {ts : List Token} (h : Takes v e low text ts) :
    ∃ finish, scanFrom v e low text = (ts ++ [Token.mk .endOfInput finish]).map .ok := by
  induction h with
  | ended e low hgap =>
    exact ⟨_, scanFrom_end v e low (List.dropWhile_eq_nil_iff.mpr hgap)⟩
  | token hgap hc hread hstart hstop _ ih =>
    obtain ⟨finish, hscan⟩ := ih
    rw [hstop, hstart] at hscan
    refine ⟨finish, ?_⟩
    rw [scanFrom_cons v _ _ (dropWhile_gap hgap hc _), hread, takeWhile_gap hgap hc]
    simp only [List.take_left, List.drop_left, hscan, hstop, hstart]
    rfl

section

variable {e : Expectancy} {low : Nat} {text : List Char} {ts : List Token}

/-- A scan without an error takes its tokens one after the other. -/
theorem takes_of_scanFrom (v : CheckedVocabulary) {finish : Span}
    (hscan : scanFrom v e low text = (ts ++ [Token.mk .endOfInput finish]).map .ok) :
    Takes v e low text ts := by
  induction e, low, text using scanFrom_induction v generalizing ts with
  | ended e low gap hgap hend =>
    rw [hend] at hscan
    cases ts with
    | nil => exact .ended e low hgap
    | cons t ts => simp at hscan
  | failed e low gap c rest fault _ _ hfailed =>
    rw [hfailed] at hscan
    cases ts <;> simp at hscan
  | token e low gap c rest kind n start stop hgap hc hread hstart hstop htoken ih =>
    rw [htoken] at hscan
    obtain ⟨hspelled, hlength⟩ := spelledBy_of_begins v (begins_of_readLexeme hread)
    cases ts with
    | nil =>
      simp only [List.nil_append, List.map_cons, List.cons.injEq, Except.ok.injEq,
        Token.mk.injEq] at hscan
      rw [hscan.1.1] at hspelled
      exact hspelled.elim
    | cons t ts =>
      simp only [List.cons_append, List.map_cons, List.cons.injEq, Except.ok.injEq] at hscan
      obtain ⟨rfl, hscan⟩ := hscan
      have hrest := ih hscan
      rw [← List.take_append_drop n rest]
      refine .token hgap hc ?_ hstart hstop hrest
      rwa [List.take_append_drop, List.length_take_of_le hlength]

theorem takes_of_tokens (v : CheckedVocabulary) {text : String} {finish : Span}
    (hts : tokens v text = .ok (ts ++ [⟨.endOfInput, finish⟩])) :
    Takes v .field 0 text.toList ts :=
  takes_of_scanFrom v (allTokens_eq_ok_iff.mp hts)

end

theorem tokens_of_takes {v : Vocabulary} {text : String} {ts : List Token}
    (h : Takes v .field 0 text.toList ts) :
    ∃ finish, tokens v text = .ok (ts ++ [⟨.endOfInput, finish⟩]) := by
  obtain ⟨finish, hscan⟩ := scanFrom_of_takes h
  exact ⟨finish, allTokens_eq_ok_iff.mpr hscan⟩

/-! Spans in a text that is spaced out. -/

def Span.opened (cut n : Nat) (s : Span) : Span :=
  ⟨if s.start < cut then s.start else s.start + n, if s.stop ≤ cut then s.stop else s.stop + n⟩

/-- Putting in bytes at a cut keeps what a span is joined of. -/
theorem Span.opened_union (cut n : Nat) (a b : Span) :
    (a.union b).opened cut n = (a.opened cut n).union (b.opened cut n) := by
  simp only [opened, union, Span.mk.injEq]
  constructor <;> grind

theorem Span.opened_zero (cut : Nat) (s : Span) : s.opened cut 0 = s := by
  simp [opened]

theorem Span.opened_before {cut start stop : Nat} (n : Nat) (hlt : start < stop)
    (hle : stop ≤ cut) : opened cut n ⟨start, stop⟩ = ⟨start, stop⟩ := by
  simp only [opened]
  rw [if_pos (by omega), if_pos hle]

theorem Span.opened_behind {cut start stop : Nat} (n : Nat) (hle : cut ≤ start)
    (hlt : start < stop) : opened cut n ⟨start, stop⟩ = ⟨start + n, stop + n⟩ := by
  simp only [opened]
  rw [if_neg (by omega), if_neg (by omega)]

namespace Takes

variable {v : Vocabulary} {e : Expectancy} {low : Nat} {text : List Char} {ts : List Token}

theorem bounds (h : Takes v e low text ts) :
    ∀ t ∈ ts, low ≤ t.span.start ∧ t.span.start < t.span.stop := by
  induction h with
  | ended => nofun
  | @token e low start stop gap tail rest c kind ts _ _ _ hstart hstop _ ih =>
    have hpos := Char.utf8Size_pos c
    rw [byteSize_cons] at hstop
    refine List.forall_mem_cons.mpr ⟨?_, fun t ht => ?_⟩
    · exact ⟨hstart ▸ Nat.le_add_right _ _, show start < stop by omega⟩
    · obtain ⟨hlow, hlength⟩ := ih t ht
      exact ⟨by omega, hlength⟩

/-- A text that starts further on gives tokens further on. -/
theorem behind (h : Takes v e low text ts) {cut : Nat} (hcut : cut ≤ low) (n : Nat) :
    Takes v e (low + n) text (ts.map (Token.mapSpan (Span.opened cut n))) := by
  induction h with
  | ended e low hgap => exact .ended e (low + n) hgap
  | @token e low start stop gap tail rest c kind ts hgap hc hread hstart hstop _ ih =>
    have hpos := Char.utf8Size_pos c
    have hlength := hstop
    rw [byteSize_cons] at hlength
    have hspan : Span.opened cut n ⟨start, stop⟩ = ⟨start + n, stop + n⟩ :=
      Span.opened_behind n (by omega) (by omega)
    rw [List.map_cons, Token.mapSpan, hspan]
    exact .token hgap hc hread (by omega) (by omega) (ih (by omega))

/-- Blanks in front of a text are no tokens. -/
theorem blanks {gap : List Char} (hgap : ∀ c ∈ gap, isBlank c = true)
    (h : Takes v e (low + byteSize gap) text ts) : Takes v e low (gap ++ text) ts := by
  cases h with
  | ended _ _ hgap' => exact .ended e low (List.forall_mem_append.mpr ⟨hgap, hgap'⟩)
  | token hgap' hc hread hstart hstop hrest =>
    rw [← List.append_assoc]
    refine .token (List.forall_mem_append.mpr ⟨hgap, hgap'⟩) hc hread ?_ hstop hrest
    rw [hstart, byteSize_append, Nat.add_assoc]

/-- The first token is what is read after the first blanks. -/
theorem uncons {gap rest : List Char} {c : Char} {kind : TokenKind} {n : Nat}
    (h : Takes v e low (gap ++ c :: rest) ts) (hgap : ∀ c ∈ gap, isBlank c = true)
    (hc : isBlank c = false) (hread : readLexeme v e c rest = .ok (kind, n)) :
    ∃ span us, ts = ⟨kind, span⟩ :: us ∧
      Takes v (.after kind) (low + byteSize gap + byteSize (c :: rest.take n)) (rest.drop n)
        us := by
  generalize htext : gap ++ c :: rest = text at h
  have hdrop := dropWhile_gap hgap hc rest
  have htake := takeWhile_gap hgap hc rest
  rw [htext] at hdrop htake
  cases h with
  | ended _ _ hgap' =>
    rw [List.dropWhile_eq_nil_iff.mpr hgap'] at hdrop
    cases hdrop
  | token hgap' hc' hread' hstart hstop hrest =>
    rw [dropWhile_gap hgap' hc'] at hdrop
    rw [takeWhile_gap hgap' hc'] at htake
    obtain ⟨rfl, rfl⟩ := List.cons_eq_cons.mp hdrop
    subst htake
    rw [hread'] at hread
    cases hread
    rw [List.take_left, List.drop_left, ← hstart, ← hstop]
    exact ⟨_, _, rfl, hrest⟩

/-- The place of one token, and what is taken after it. -/
theorem split {us vs : List Token} {t : Token} (h : Takes v e low text (us ++ t :: vs)) :
    ∃ front piece rest, text = front ++ piece ++ rest ∧ piece ≠ [] ∧
      t.span = ⟨low + byteSize front, low + byteSize (front ++ piece)⟩ ∧
      Takes v (.after t.kind) t.span.stop rest vs := by
  induction us generalizing e low text with
  | nil =>
    cases h with
    | @token _ _ _ _ gap tail rest c kind _ _ _ _ hstart hstop hrest =>
      refine ⟨gap, c :: tail, rest, by simp, List.cons_ne_nil _ _, ?_, hrest⟩
      simp [hstart, hstop, Nat.add_assoc]
  | cons u us ih =>
    cases h with
    | @token _ _ _ _ gap tail rest c kind _ _ _ _ hstart hstop hrest =>
      obtain ⟨front, piece, rest', rfl, hne, hspan, hlater⟩ := ih hrest
      refine ⟨gap ++ c :: tail ++ front, piece, rest', by simp, hne, ?_, hlater⟩
      simp [hspan, hstart, hstop, Nat.add_assoc]

end Takes

end RecordFilter
