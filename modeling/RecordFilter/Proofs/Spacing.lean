import RecordFilter.Proofs.Cuts
import RecordFilter.Proofs.Places
import RecordFilter.Proofs.RoundTrip
import RecordFilter.Proofs.Runs

/-!
Blanks between tokens. Where blanks are put in between two tokens, every token is read as before and
moves by their length if it stands behind them. There is one exception: with the blanks in place, an
operator in front of them may run on up to them, where a word would have been split by it otherwise.
-/
namespace RecordFilter

/-! Tokens in front of the cut. -/

/-- The cut between `before` and `after` splits a word, and from the start of the token up to the
cut the text spells an operator that is found in place of the token when the word ends there. -/
def Token.Lengthened (v : Vocabulary) (before after : List Char) (t : Token) : Prop :=
  t.span.stop < byteSize before ∧
    Vocabulary.splitsWord before.length (before ++ after) = true ∧
    ∃ front piece, before = front ++ piece ∧ t.span.start = byteSize front ∧
      t.kind.OutgrownBy v piece

theorem splitsWord_append {piece : List Char} (hne : piece ≠ []) (front after : List Char) :
    Vocabulary.splitsWord (front ++ piece).length (front ++ piece ++ after) =
      Vocabulary.splitsWord piece.length (piece ++ after) := by
  unfold Vocabulary.splitsWord
  rw [List.take_left, List.take_left, List.drop_left, List.drop_left,
    List.getLast?_append_of_ne_nil front hne]

/-- For a token whose piece is known, being lengthened is a matter of what follows the piece. -/
theorem Token.lengthened_iff {v : Vocabulary} {before after : List Char} {t : Token}
    (front piece more : List Char) (hbefore : before = front ++ (piece ++ more)) (hne : piece ≠ [])
    (hspan : t.span = ⟨byteSize front, byteSize (front ++ piece)⟩) :
    t.Lengthened v before after ↔ more ≠ [] ∧
      Vocabulary.splitsWord (piece ++ more).length (piece ++ more ++ after) = true ∧
        t.kind.OutgrownBy v (piece ++ more) := by
  have hmore : t.span.stop < byteSize before ↔ more ≠ [] := by
    rw [hspan, hbefore]
    simp only [byteSize_append]
    refine ⟨?_, fun hne => ?_⟩
    · rintro hlt rfl
      simp at hlt
    · have hzero : byteSize more ≠ 0 := fun hzero => hne (byteSize_eq_zero.mp hzero)
      omega
  have hpiece : piece ++ more ≠ [] := by simp [hne]
  rw [Lengthened, hmore, hbefore, splitsWord_append hpiece, hspan]
  refine and_congr_right fun _ => and_congr_right fun _ => ⟨?_, fun hgrown => ?_⟩
  · rintro ⟨front', piece', hsplit, hstart, hgrown⟩
    rwa [(append_eq_of_byteSize hsplit hstart).2]
  · exact ⟨front, piece ++ more, rfl, rfl, hgrown⟩

/-! Only operators with digits in them can be lengthened. -/

theorem exists_digit_of_startsNumber {c : Char} {tail : List Char}
    (h : startsNumber c tail = true) : ∃ d ∈ c :: tail, d.isDigit = true := by
  obtain hc | ⟨_, d, ds, rfl, hd⟩ := startsNumber_iff.mp h
  · exact ⟨c, List.mem_cons_self, hc⟩
  · exact ⟨d, by simp, hd⟩

theorem not_splitsWord_of_blanks {gap : List Char} (hgap : ∀ c ∈ gap, isBlank c = true)
    (after : List Char) : ¬ Vocabulary.splitsWord gap.length (gap ++ after) = true := by
  intro hsplit
  obtain ⟨⟨c, hc, hword⟩, _⟩ := Vocabulary.of_splitsWord hsplit
  rw [not_wordChar_of_break (isBreak_of_blank (hgap c (List.mem_of_getLast? hc)))] at hword
  cases hword

/-- What a scan takes up to a cut that splits a word ends with a number. -/
theorem Takes.exists_digit (v : CheckedVocabulary) {e : Expectancy} {low : Nat}
    {text : List Char} {ts : List Token} (htakes : Takes v e low text ts) :
    ∀ before after, text = before ++ after → before ≠ [] →
      Vocabulary.splitsWord before.length (before ++ after) = true →
      (∀ t ∈ ts, t.span.stop ≤ low + byteSize before ∨ low + byteSize before ≤ t.span.start) →
      ∃ d ∈ before, d.isDigit = true := by
  induction htakes with
  | ended e low hgap =>
    rintro before after rfl _ hsplit _
    exact absurd hsplit (not_splitsWord_of_blanks (List.forall_mem_append.mp hgap).1 after)
  | @token e low start stop gap tail rest c kind ts hgap hc hread hstart hstop _ ih =>
    intro before after htext _ hsplit hboundary
    obtain ⟨hbound, hboundary⟩ := List.forall_mem_cons.mp hboundary
    simp only at hbound
    obtain hle | hle := hbound
    · have hwhole : gap ++ c :: tail ++ rest = before ++ after := by simpa using htext
      have hsize : byteSize (gap ++ c :: tail) ≤ byteSize before := by
        rw [byteSize_append]
        omega
      obtain ⟨more, rfl, rfl⟩ := split_of_byteSize_le hwhole hsize
      by_cases hmore : more = []
      · subst hmore
        rw [List.append_nil, splitsWord_append (List.cons_ne_nil _ _)] at hsplit
        obtain ⟨d, hd, hdigit⟩ := exists_digit_of_startsNumber
          (startsNumber_of_splitsWord v (begins_of_readLexeme hread) hsplit)
        exact ⟨d, by simp only [List.append_nil, List.mem_append, hd, or_true], hdigit⟩
      · have hcut : stop + byteSize more = low + byteSize (gap ++ c :: tail ++ more) := by
          simp only [byteSize_append]
          omega
        rw [splitsWord_append hmore] at hsplit
        obtain ⟨d, hd, hdigit⟩ := ih more after rfl hmore hsplit (by rwa [hcut])
        exact ⟨d, List.mem_append_right _ hd, hdigit⟩
    · obtain ⟨more, rfl, rfl⟩ := split_of_byteSize_le htext.symm (by omega)
      exact absurd hsplit (not_splitsWord_of_blanks (List.forall_mem_append.mp hgap).1 _)

/-- An operator that grows up to a cut has a digit in it, since the last token before the cut is a
number or a date. -/
theorem Token.exists_digit_of_lengthened (v : CheckedVocabulary) {before after : List Char}
    {ts : List Token} (htakes : Takes v .field 0 (before ++ after) ts)
    (hboundary : ∀ t ∈ ts, t.span.stop ≤ byteSize before ∨ byteSize before ≤ t.span.start)
    {t : Token} (ht : t ∈ ts) (hlong : t.Lengthened v before after) :
    ∃ piece, t.kind.OutgrownBy v piece ∧ ∃ d ∈ piece, d.isDigit = true := by
  obtain ⟨us, vs, rfl⟩ := List.append_of_mem ht
  obtain ⟨front, piece, rest, htext, hne, hspan, hlater⟩ := htakes.split
  rw [Nat.zero_add, Nat.zero_add] at hspan
  have hsize : byteSize (front ++ piece) ≤ byteSize before := by
    have hstop := hlong.1
    rw [hspan] at hstop
    exact hstop.le
  obtain ⟨more, rfl, rfl⟩ := split_of_byteSize_le htext.symm hsize
  obtain ⟨hmore, hsplit, hgrown⟩ :=
    (Token.lengthened_iff front piece more (List.append_assoc _ _ _) hne hspan).mp hlong
  rw [splitsWord_append hmore] at hsplit
  have hcut : t.span.stop + byteSize more = byteSize (front ++ piece ++ more) := by
    rw [hspan, byteSize_append (front ++ piece)]
  obtain ⟨d, hd, hdigit⟩ := hlater.exists_digit v more after rfl hmore hsplit fun u hu => by
    rw [hcut]
    exact hboundary u (List.mem_append_right us (List.mem_cons_of_mem t hu))
  exact ⟨piece ++ more, hgrown, d, List.mem_append_right piece hd, hdigit⟩

def Spelling.DigitFree (s : Spelling) : Prop :=
  (∀ op ignoreCase, ∀ c ∈ (s.comparisonText op ignoreCase).toList, c.isDigit = false) ∧
    ∀ op, ∀ c ∈ (s.logical op).toList, c.isDigit = false

theorem Spelling.digitFree_standard : Spelling.standard.DigitFree := by
  have hcomparison : ∀ op ∈ CompareOp.all, ∀ ignoreCase,
      (standard.comparisonText op ignoreCase).toList.any Char.isDigit = false := by
    decide +kernel
  have hlogical : ∀ op, (standard.logical op).toList.any Char.isDigit = false := by
    rintro (_ | _) <;> decide +kernel
  exact ⟨fun op ignoreCase c hc => eq_false_of_ne_true
      (List.any_eq_false.mp (hcomparison op op.mem_all ignoreCase) c hc),
    fun op c hc => eq_false_of_ne_true (List.any_eq_false.mp (hlogical op) c hc)⟩

theorem mem_of_same_ignoring_case {cs ds : List Char}
    (h : cs.map Char.toLower = ds.map Char.toLower) {d : Char} (hdigit : d.isDigit = true)
    (hd : d ∈ cs) : d ∈ ds := by
  have hcase : d.toLower = d ∧ d.isLower = false := by
    simp only [Char.isDigit, Bool.and_eq_true, decide_eq_true_eq, UInt32.le_iff_toNat_le,
      ge_iff_le] at hdigit
    have hhigh : d.toNat ≤ 57 := hdigit.2
    refine ⟨(toLower_cases d).resolve_left (by omega), Bool.and_eq_false_imp.mpr fun hlow => ?_⟩
    have hlow : 97 ≤ d.toNat := of_decide_eq_true hlow
    omega
  have hmem : d.toLower ∈ ds.map Char.toLower := h ▸ List.mem_map_of_mem hd
  obtain ⟨c, hc, heq⟩ := List.mem_map.mp hmem
  rwa [← eq_of_toLower_eq hcase.2 (heq.trans hcase.1)]

theorem Spelling.DigitFree.not_digit_of_outgrown {v : Vocabulary} (h : v.spelling.DigitFree)
    {kind : TokenKind} {piece : List Char} (hgrown : kind.OutgrownBy v piece) {d : Char}
    (hd : d ∈ piece) : ¬ d.isDigit = true := by
  intro hdigit
  cases kind with
  | comparison op ignoreCase =>
    obtain ⟨other, ignoreCase', _, hsame⟩ := hgrown
    have hmem := mem_of_same_ignoring_case hsame hdigit hd
    exact absurd hdigit (ne_true_of_eq_false (h.1 other ignoreCase' d hmem))
  | logical op =>
    obtain ⟨other, hsame⟩ := hgrown
    have hmem := mem_of_same_ignoring_case hsame hdigit hd
    exact absurd hdigit (ne_true_of_eq_false (h.2 other d hmem))
  | _ => exact hgrown.elim

/-- The scan of a text that has blanks of `n` bytes between `before` and `after`. Apart from the
blanks it takes the same tokens, unless one of them is lengthened. -/
def Spaced (v : Vocabulary) (before after : List Char) (n : Nat) (e : Expectancy) (low : Nat)
    (text : List Char) (ts : List Token) : Prop :=
  (∀ t ∈ ts, ¬ t.Lengthened v before after) ∧
      Takes v e low text (ts.map (Token.mapSpan (Span.opened (byteSize before) n))) ∨
    (∃ t ∈ ts, t.Lengthened v before after) ∧
      ∀ us, Takes v e low text us → us.map Token.kind ≠ ts.map Token.kind

section

variable {v : Vocabulary} {before after w : List Char} {low : Nat} {e : Expectancy}
  {ts : List Token}

/-- Behind the cut nothing is lengthened. -/
theorem spaced_behind {xs : List Char} (hw : ∀ c ∈ w, isBlank c = true)
    (hxs : ∀ c ∈ xs, isBlank c = true) (hcut : byteSize before = low + byteSize xs)
    (h : Takes v e (byteSize before) after ts) :
    Spaced v before after (byteSize w) e low (xs ++ (w ++ after)) ts := by
  refine .inl ⟨fun t ht hlong => ?_, ?_⟩
  · obtain ⟨hstart, hlength⟩ := h.bounds t ht
    have hstop := hlong.1
    omega
  · have hmoved := h.behind (Nat.le_refl (byteSize before)) (byteSize w)
    rw [← List.append_assoc]
    refine Takes.blanks (List.forall_mem_append.mpr ⟨hxs, hw⟩) ?_
    rwa [byteSize_append, ← Nat.add_assoc, ← hcut]

/-- A token in front of the cut that is not lengthened is taken again. -/
theorem spaced_cons {gap tail rest : List Char} {c : Char} {kind : TokenKind} {n start stop : Nat}
    (hgap : ∀ c ∈ gap, isBlank c = true) (hc : isBlank c = false)
    (hread : readLexeme v e c (tail ++ rest) = .ok (kind, tail.length))
    (hstart : start = low + byteSize gap) (hstop : stop = start + byteSize (c :: tail))
    (hcut : stop ≤ byteSize before) (ht : ¬ Token.Lengthened v before after ⟨kind, ⟨start, stop⟩⟩)
    (h : Spaced v before after n (.after kind) stop rest ts) :
    Spaced v before after n e low (gap ++ c :: (tail ++ rest)) (⟨kind, ⟨start, stop⟩⟩ :: ts) := by
  have hpos := Char.utf8Size_pos c
  have hspan : Span.opened (byteSize before) n ⟨start, stop⟩ = ⟨start, stop⟩ :=
    Span.opened_before n (by rw [byteSize_cons] at hstop; omega) hcut
  obtain ⟨hnone, htakes⟩ | ⟨⟨t, hmem, hlong⟩, hdiffer⟩ := h
  · refine .inl ⟨List.forall_mem_cons.mpr ⟨ht, hnone⟩, ?_⟩
    rw [List.map_cons, Token.mapSpan, hspan]
    exact .token hgap hc hread hstart hstop htakes
  · refine .inr ⟨⟨t, List.mem_cons_of_mem _ hmem, hlong⟩, fun us hus hsame => ?_⟩
    obtain ⟨span, us, rfl, hrest⟩ := hus.uncons hgap hc hread
    rw [List.take_left, List.drop_left, ← hstart, ← hstop] at hrest
    exact hdiffer us hrest (List.cons_eq_cons.mp hsame).2

/-- Something else is taken in place of one that is lengthened. -/
theorem spaced_lengthened {gap rest : List Char} {c : Char} {kind kind' : TokenKind} {span : Span}
    {n n' : Nat} (hgap : ∀ c ∈ gap, isBlank c = true) (hc : isBlank c = false)
    (hread : readLexeme v e c rest = .ok (kind', n')) (hkind : kind' ≠ kind)
    (ht : Token.Lengthened v before after ⟨kind, span⟩) :
    Spaced v before after n e low (gap ++ c :: rest) (⟨kind, span⟩ :: ts) := by
  refine .inr ⟨⟨_, List.mem_cons_self, ht⟩, fun us hus hsame => ?_⟩
  obtain ⟨span', us, rfl, _⟩ := hus.uncons hgap hc hread
  exact hkind (List.cons_eq_cons.mp hsame).1

/-- One step of the scan in front of the cut. -/
theorem spaced_token (v : CheckedVocabulary) (hw : ∀ c ∈ w, isBlank c = true) (hne : w ≠ [])
    {front gap tail more : List Char} {c : Char} {kind : TokenKind} {start stop : Nat}
    (hbefore : before = front ++ gap ++ (c :: tail ++ more)) (hlow : byteSize front = low)
    (hgap : ∀ c ∈ gap, isBlank c = true) (hc : isBlank c = false) (hkind : e.Admits kind)
    (hread : readLexeme v e c (tail ++ more ++ after) = .ok (kind, tail.length))
    (hstart : start = low + byteSize gap) (hstop : stop = start + byteSize (c :: tail))
    (hrest : Spaced v before after (byteSize w) (.after kind) stop
      (more ++ (w ++ after)) ts) :
    Spaced v before after (byteSize w) e low
      (gap ++ c :: (tail ++ (more ++ (w ++ after)))) (⟨kind, ⟨start, stop⟩⟩ :: ts) := by
  have hlong : Token.Lengthened v before after ⟨kind, ⟨start, stop⟩⟩ ↔ more ≠ [] ∧
      Vocabulary.splitsWord (c :: (tail ++ more)).length (c :: (tail ++ more) ++ after) = true ∧
        kind.OutgrownBy v (c :: (tail ++ more)) := by
    refine Token.lengthened_iff (front ++ gap) (c :: tail) more hbefore (List.cons_ne_nil _ _) ?_
    simp [hstart, hstop, hlow, Nat.add_assoc]
  have hseam : ∀ lexeme, readLexeme v e c (tail ++ more) = .ok lexeme →
      readLexeme v e c (tail ++ (more ++ (w ++ after))) = .ok lexeme := by
    intro lexeme hlexeme
    obtain ⟨d, w, rfl⟩ := List.exists_cons_of_ne_nil hne
    have hd : isBreak d = true := isBreak_of_blank (hw d List.mem_cons_self)
    simpa using readLexeme_seam v hd hlexeme (w ++ after)
  by_cases ht : Token.Lengthened v before after ⟨kind, ⟨start, stop⟩⟩
  · obtain ⟨hmore, _, hgrown⟩ := hlong.mp ht
    have hlt : tail.length < (tail ++ more).length := by
      have hpos := List.length_pos_iff.mpr hmore
      rw [List.length_append]
      omega
    obtain ⟨kind', n', hread', hother⟩ := readLexeme_outgrown v hkind hread hlt hgrown
    exact spaced_lengthened hgap hc (hseam _ hread') hother ht
  · have hsame : readLexeme v e c (tail ++ more) = .ok (kind, tail.length) := by
      refine readLexeme_cut v hkind hread (by simp) fun hlt hsplit hgrown =>
        ht (hlong.mpr ⟨?_, hsplit, hgrown⟩)
      rintro rfl
      simp at hlt
    have hle : stop ≤ byteSize before := by
      rw [hbefore, hstop, hstart, ← hlow]
      simp only [byteSize_append]
      omega
    exact spaced_cons hgap hc (hseam _ hsame) hstart hstop hle ht hrest

/-- The cut lies anywhere between the tokens of a scan, and blanks are put in there. -/
theorem spaced_of_takes (v : CheckedVocabulary) (hw : ∀ c ∈ w, isBlank c = true)
    (hne : w ≠ []) {e' : Expectancy} {text : List Char}
    (htakes : Takes v e low text ts) :
    ∀ front xs, byteSize front = low → text = xs ++ after → before = front ++ xs →
      e.Leads (ts.map Token.kind) e' →
      (∀ t ∈ ts, t.span.stop ≤ byteSize before ∨ byteSize before ≤ t.span.start) →
      Spaced v before after (byteSize w) e low (xs ++ (w ++ after)) ts := by
  induction htakes with
  | ended e low hgap =>
    rintro front xs hlow rfl hbefore _ _
    obtain ⟨hxs, hafter⟩ := List.forall_mem_append.mp hgap
    have hcut : byteSize before = low + byteSize xs := by rw [hbefore, byteSize_append, hlow]
    exact spaced_behind hw hxs hcut (.ended e _ hafter)
  | @token e low start stop gap tail rest c kind ts hgap hc hread hstart hstop hrest ih =>
    rintro front xs hlow htext hbefore hleads hboundary
    have hcut : byteSize before = low + byteSize xs := by rw [hbefore, byteSize_append, hlow]
    obtain ⟨hbound, hboundary⟩ := List.forall_mem_cons.mp hboundary
    simp only at hbound
    cases hleads with
    | cons hkind hleads =>
    obtain hle | hle := hbound
    · have hsplit : gap ++ c :: tail ++ rest = xs ++ after := by simpa using htext
      have hsize : byteSize (gap ++ c :: tail) ≤ byteSize xs := by
        rw [byteSize_append]
        omega
      obtain ⟨more, rfl, rfl⟩ := split_of_byteSize_le hsplit hsize
      have hlow' : byteSize (front ++ gap ++ c :: tail) = stop := by
        simp only [byteSize_append]
        omega
      have hmore := ih (front ++ gap ++ c :: tail) more hlow' rfl (by simp [hbefore]) hleads
        hboundary
      have hstep := spaced_token v hw hne (by simp [hbefore]) hlow hgap hc hkind
        (by simpa using hread) hstart hstop hmore
      simpa using hstep
    · obtain ⟨more, rfl, rfl⟩ := split_of_byteSize_le htext.symm (by omega)
      obtain ⟨hxs, hmore⟩ := List.forall_mem_append.mp hgap
      refine spaced_behind hw hxs hcut (.token hmore hc hread ?_ hstop hrest)
      rw [hstart, hcut, byteSize_append, Nat.add_assoc]

end

/-! Conditions. -/

namespace Condition

theorem takes_of_ofText (v : CheckedVocabulary) {text : String} {n : Condition}
    (hn : Condition.ofText v text = .ok n) :
    ∃ ts, Takes v .field 0 text.toList ts ∧ Derives (.whole .expression) ts n := by
  obtain ⟨ts, finish, hts, _, hderives⟩ := tiles_of_ofText v hn
  exact ⟨ts, takes_of_tokens v hts, hderives⟩

/-- A text is read as the condition that its tokens spell. -/
theorem ofText_of_takes {v : Vocabulary} {text : String} {ts : List Token} {n : Condition}
    (hn : Derives (.whole .expression) ts n) (hheight : n.height ≤ maxHeight)
    (htakes : Takes v .field 0 text.toList ts) : Condition.ofText v text = .ok n := by
  obtain ⟨finish, hts⟩ := tokens_of_takes htakes
  refine ofText_eq_ok_iff.mpr ⟨_, hts, ?_⟩
  obtain ⟨_, hok⟩ | ⟨hhigh, _⟩ := ofTokens_of_derives hn
    (show Reader.atEnd [⟨.endOfInput, finish⟩] = true from rfl)
  · exact hok
  · omega

/-- Tokens that have moved are read as a condition that has moved with them. -/
theorem ofText_of_moved {v : Vocabulary} {text : String} {ts : List Token} {n : Condition}
    {f : Span → Span} (hf : ∀ a b, f (a.union b) = (f a).union (f b))
    (hn : Derives (.whole .expression) ts n) (hheight : n.height ≤ maxHeight)
    (htakes : Takes v .field 0 text.toList (ts.map (Token.mapSpan f))) :
    Condition.ofText v text = .ok (n.mapSpans f) := by
  refine ofText_of_takes (hn.mapSpans hf) ?_ htakes
  rwa [height_mapSpans]

end Condition

/-- Blanks that are put into the text of a condition, between two tokens or at either end, move the
spans behind them and change nothing else, unless they lengthen an operator in front of them. Where
they do, the text is not read as this condition any more. No operator is lengthened under a spelling
without digits. -/
theorem Condition.ofText_spaced {configuration : Configuration} {before after gap : String}
    {n : Condition} {ts : List Token} {finish : Span}
    (hn : Condition.ofText configuration.vocabulary (before ++ after) = .ok n)
    (hts : tokens configuration.vocabulary (before ++ after) =
      .ok (ts ++ [⟨.endOfInput, finish⟩]))
    (hcut : ∀ t ∈ ts, t.span.stop ≤ byteSize before.toList ∨ byteSize before.toList ≤ t.span.start)
    (hgap : ∀ c ∈ gap.toList, isBlank c = true) :
    let v := configuration.vocabulary
    let cut := byteSize before.toList
    let spaced := before ++ gap ++ after
    let apart := gap = "" ∨ ∀ t ∈ ts, ¬ t.Lengthened v before.toList after.toList
    (apart → Condition.ofText v spaced =
      .ok (n.mapSpans (Span.opened cut (byteSize gap.toList)))) ∧
    ((∃ m, Condition.ofText v spaced = .ok m ∧ m.bare = n.bare) → apart) ∧
    (v.spelling.DigitFree → apart) := by
  intro v cut spaced apart
  obtain ⟨us, finish', hus, _, hderives⟩ := tiles_of_ofText v hn
  rw [hts] at hus
  obtain ⟨rfl, _⟩ := List.append_inj' (Except.ok.inj hus) rfl
  obtain ⟨_, _, hheight, _⟩ := exists_derives_of_ofText hn
  have htakes := takes_of_tokens v hts
  rw [String.toList_append] at htakes
  have hdigitFree : v.spelling.DigitFree → apart := by
    refine fun hfree => .inr fun t ht hlong => ?_
    obtain ⟨piece, hgrown, d, hd, hdigit⟩ :=
      Token.exists_digit_of_lengthened v htakes hcut ht hlong
    exact hfree.not_digit_of_outgrown hgrown hd hdigit
  have hread : Takes v .field 0 spaced.toList
      (ts.map (Token.mapSpan (Span.opened cut (byteSize gap.toList)))) →
      Condition.ofText v spaced = .ok (n.mapSpans (Span.opened cut (byteSize gap.toList))) :=
    ofText_of_moved (Span.opened_union cut (byteSize gap.toList)) hderives hheight
  by_cases hempty : gap = ""
  · refine ⟨fun _ => hread ?_, fun _ => .inl hempty, hdigitFree⟩
    have hsame : Token.mapSpan (Span.opened cut 0) = id := by
      funext t
      rw [Token.mapSpan, Span.opened_zero]
      rfl
    subst hempty
    simpa [spaced, hsame] using htakes
  have hne : gap.toList ≠ [] := fun hnil => hempty (String.toList_eq_nil_iff.mp hnil)
  have hleads : Expectancy.field.Leads (ts.map Token.kind) .connective := by
    rw [hderives.kinds_eq]
    exact n.kinds_lead
  obtain ⟨hnone, hmoved⟩ | ⟨⟨t, ht, hlong⟩, hdiffer⟩ :=
    spaced_of_takes v hgap hne htakes [] before.toList rfl rfl rfl hleads hcut
  · refine ⟨fun _ => hread ?_, fun _ => .inr hnone, hdigitFree⟩
    simpa [spaced] using hmoved
  · have hapart : ¬ apart := not_or.mpr ⟨hempty, fun hnone => hnone t ht hlong⟩
    refine ⟨fun h => absurd h hapart, ?_, hdigitFree⟩
    rintro ⟨m, hm, hbare⟩
    obtain ⟨us, hus, hspelled⟩ := takes_of_ofText v hm
    refine absurd ?_ (hdiffer us (by simpa [spaced] using hus))
    rw [hspelled.kinds_eq, hderives.kinds_eq, kinds_eq_of_bare_eq hbare]

/-- A sign that begins with another one and ends with a digit, and a connective that can stand
right after a digit. -/
def Spelling.digitSigned : Spelling where
  comparison
    | .equals => "="
    | .notEquals => "=5"
    | op => op.symbol
  logical
    | .and => "_and"
    | op => op.symbol

/-- The sign with the digit is two tokens before a word that goes on after the digit, and one
operator before a blank. -/
theorem Condition.blanks_not_always_skipped :
    ¬ ∀ (settings : Settings) (configuration : Configuration),
      Configuration.ofSettings? settings = .ok configuration →
      ∀ (before after gap : String) (n : Condition) (ts : List Token) (finish : Span),
        let v := configuration.vocabulary
        let cut := byteSize before.toList
        Condition.ofText v (before ++ after) = .ok n →
        tokens v (before ++ after) = .ok (ts ++ [⟨.endOfInput, finish⟩]) →
        (∀ t ∈ ts, t.span.stop ≤ cut ∨ cut ≤ t.span.start) →
        (∀ c ∈ gap.toList, isBlank c = true) →
        Condition.ofText v (before ++ gap ++ after) =
          .ok (n.mapSpans (Span.opened cut (byteSize gap.toList))) := by
  intro hall
  let settings : Settings := { spelling := .digitSigned }
  have hok : (Configuration.ofSettings? settings).isOk = true := by decide +kernel
  obtain ⟨configuration, hconfiguration⟩ := exists_ok_of_isOk hok
  obtain ⟨n, hn, _⟩ := exists_ofText_eq settings.spelling "A =5_and B =1" Condition.text
    "A == 5 && B == 1" (by decide +kernel)
  have hts : tokens (.inserted settings.spelling) ("A =5" ++ "_and B =1") = .ok ([
      ⟨.field "A", ⟨0, 1⟩⟩, ⟨.comparison .equals false, ⟨2, 3⟩⟩, ⟨.literal .number "5", ⟨3, 4⟩⟩,
      ⟨.logical .and, ⟨4, 8⟩⟩, ⟨.field "B", ⟨9, 10⟩⟩, ⟨.comparison .equals false, ⟨11, 12⟩⟩,
      ⟨.literal .number "1", ⟨12, 13⟩⟩] ++ [⟨.endOfInput, ⟨13, 13⟩⟩]) := by
    decide +kernel
  have hfailed : (Condition.ofText (.inserted settings.spelling)
      ("A =5" ++ " " ++ "_and B =1")).toOption = none := by
    decide +kernel
  rw [← Vocabulary.ofSpelling_eq_inserted, ← (Configuration.of_ofSettings? hconfiguration).2]
    at hts hfailed
  rw [← (Configuration.of_ofSettings? hconfiguration).2] at hn
  rw [hall settings configuration hconfiguration "A =5" "_and B =1" " " n _ _ hn hts (by decide)
    (List.all_eq_true.mp (by decide))] at hfailed
  cases hfailed

/-- The same signs before another digit, and blanks of four bytes. -/
theorem Condition.ofText_spaced_after_number :
    let settings : Settings := { spelling := .digitSigned }
    ∃ configuration n,
      Configuration.ofSettings? settings = .ok configuration ∧
      Condition.ofText configuration.vocabulary "A =7_and B =1" = .ok n ∧
      Condition.ofText configuration.vocabulary "A =7\u3000\t_and B =1" =
        .ok (n.mapSpans (Span.opened 4 4)) ∧
      (n.mapSpans (Span.opened 4 4)).comparisons.map Comparison.span = [⟨0, 4⟩, ⟨13, 17⟩] := by
  intro settings
  have hok : (Configuration.ofSettings? settings).isOk = true := by decide +kernel
  obtain ⟨configuration, hconfiguration⟩ := exists_ok_of_isOk hok
  have hvocabulary := (Configuration.of_ofSettings? hconfiguration).2
  have hspelling : configuration.vocabulary.spelling = settings.spelling := by
    rw [configuration.spelled, (Configuration.of_ofSettings? hconfiguration).1]
  obtain ⟨n, hn, hspans⟩ := exists_ofText_eq settings.spelling "A =7_and B =1"
    (fun n => (n.mapSpans (Span.opened 4 4)).comparisons.map Comparison.span) [⟨0, 4⟩, ⟨13, 17⟩]
    (by decide +kernel)
  have hts : tokens (.inserted settings.spelling) ("A =7" ++ "_and B =1") = .ok ([
      ⟨.field "A", ⟨0, 1⟩⟩, ⟨.comparison .equals false, ⟨2, 3⟩⟩, ⟨.literal .number "7", ⟨3, 4⟩⟩,
      ⟨.logical .and, ⟨4, 8⟩⟩, ⟨.field "B", ⟨9, 10⟩⟩, ⟨.comparison .equals false, ⟨11, 12⟩⟩,
      ⟨.literal .number "1", ⟨12, 13⟩⟩] ++ [⟨.endOfInput, ⟨13, 13⟩⟩]) := by
    decide +kernel
  have hunspelled : ∀ other ∈ CompareOp.all, ∀ ignoreCase, ['=', '7'] ≠
      (settings.spelling.comparisonText other ignoreCase).toList.map Char.toLower := by
    decide +kernel
  have hequals : ¬ Token.Lengthened configuration.vocabulary "A =7".toList "_and B =1".toList
      ⟨.comparison .equals false, ⟨2, 3⟩⟩ := by
    rw [Token.lengthened_iff ['A', ' '] ['='] ['7'] (by decide) (by decide) (by decide)]
    rintro ⟨_, _, other, ignoreCase, _, hsame⟩
    rw [TokenKind.SpelledBy, hspelling] at hsame
    exact hunspelled other other.mem_all ignoreCase hsame
  rw [← Vocabulary.ofSpelling_eq_inserted, ← hvocabulary] at hts
  rw [← hvocabulary] at hn
  have hspaced := (@ofText_spaced _ "A =7" "_and B =1" "\u3000\t" n _ _ hn hts
    (by decide) (List.all_eq_true.mp (by decide))).1 (.inr ?_)
  · exact ⟨configuration, n, hconfiguration, hn, hspaced, hspans⟩
  · refine List.forall_mem_cons.mpr ⟨?_, List.forall_mem_cons.mpr ⟨hequals, ?_⟩⟩
    · rintro ⟨_, _, _, _, _, _, hgrown⟩
      exact hgrown
    · have hbehind : ∀ t ∈ ([⟨.literal .number "7", ⟨3, 4⟩⟩, ⟨.logical .and, ⟨4, 8⟩⟩,
          ⟨.field "B", ⟨9, 10⟩⟩, ⟨.comparison .equals false, ⟨11, 12⟩⟩,
          ⟨.literal .number "1", ⟨12, 13⟩⟩] : List Token), ¬ t.span.stop < 4 := by decide
      exact fun t ht hlong => hbehind t ht hlong.1

end RecordFilter
