import RecordFilter.Proofs.Spacing

/-!
Comparisons on their own. The comparisons of a condition stand one after the other in its text, and
the piece of text that the span of one of them covers is read as this comparison when nothing else
is around it, with its spans counted from the start of the piece.
-/
namespace RecordFilter

/-! Comparisons one after the other. -/

structure InOrder (low : Nat) (cs : List Comparison) (high : Nat) : Prop where
  apart : cs.Pairwise fun c d => c.span.stop ≤ d.span.start
  within : ∀ c ∈ cs, low ≤ c.span.start ∧ c.span.start < c.span.stop ∧ c.span.stop ≤ high

namespace InOrder

variable {low mid high : Nat} {cs ds : List Comparison}

theorem nil (low high : Nat) : InOrder low [] high := ⟨.nil, nofun⟩

theorem append (h : InOrder low cs mid) (h' : InOrder mid ds high) (hle : low ≤ mid)
    (hle' : mid ≤ high) : InOrder low (cs ++ ds) high := by
  refine ⟨List.pairwise_append.mpr ⟨h.apart, h'.apart, fun c hc d hd => ?_⟩, fun c hc => ?_⟩
  · exact (h.within c hc).2.2.trans (h'.within d hd).1
  · obtain hc | hc := List.mem_append.mp hc
    · obtain ⟨hstart, hlength, hstop⟩ := h.within c hc
      exact ⟨hstart, hlength, hstop.trans hle'⟩
    · obtain ⟨hstart, hlength, hstop⟩ := h'.within c hc
      exact ⟨hle.trans hstart, hlength, hstop⟩

theorem widen {low' high' : Nat} (h : InOrder low cs high) (hlow : low' ≤ low)
    (hhigh : high ≤ high') : InOrder low' cs high' := by
  refine ⟨h.apart, fun c hc => ?_⟩
  obtain ⟨hstart, hlength, hstop⟩ := h.within c hc
  exact ⟨hlow.trans hstart, hlength, hstop.trans hhigh⟩

end InOrder

section

variable {v : Vocabulary} {text : List Char} {low high : Nat}

/-- A comparison goes from the start of its field to the end of its operand. -/
theorem span_of_derivesOperand {path : String} {a b : Span} {op : CompareOp} {ignoreCase : Bool}
    {ts : List Token} {operand : Operand} {span : Span} (h : DerivesOperand op ts operand span)
    (htiles : Tiles v text low (⟨.field path, a⟩ :: ⟨.comparison op ignoreCase, b⟩ :: ts) high) :
    ∃ last, ts.getLast? = some last ∧ a.union span = ⟨a.start, last.span.stop⟩ ∧
      low ≤ a.start ∧ a.start < last.span.stop ∧ last.span.stop ≤ high := by
  obtain ⟨first, last, hfirst, hlast, rfl⟩ := h.ends
  obtain ⟨_, _, hgap, hfield, _, hrest⟩ := htiles.uncons
  obtain ⟨_, _, hgap', hword, _, hoperand⟩ := hrest.uncons
  change Tiles v text b.stop ts high at hoperand
  have hlow : low ≤ a.start := hgap.start_le_stop
  have hbefore : a.start ≤ b.stop :=
    hfield.start_le_stop.trans (hgap'.start_le_stop.trans hword.start_le_stop)
  have hbefore' : a.stop ≤ b.stop := hgap'.start_le_stop.trans hword.start_le_stop
  obtain ⟨hstart, hstop, piece, hpiece, hne, _⟩ :=
    hoperand.covers_of_mem (List.mem_of_getLast? hlast)
  obtain ⟨hstart', hstop', _⟩ :=
    (hoperand.up_to_last hlast).covers_of_mem (List.mem_of_head? hfirst)
  have hlength : last.span.start < last.span.stop := hpiece.start_lt_stop hne
  refine ⟨last, hlast, ?_, hlow, by omega, hstop⟩
  simp only [Span.union, Span.mk.injEq]
  omega

/-- The comparisons that a phrase does not take over stand within its tokens, in their order. -/
theorem Derives.inOrder {p : Phrase} {ts : List Token} {n : Condition} (h : Derives p ts n)
    (htiles : Tiles v text low ts high) :
    ∃ cs, n.comparisons = p.comparisonsBefore ++ cs ∧ InOrder low cs high := by
  induction h generalizing low high with
  | comparison path a b op ignoreCase hoperand =>
    obtain ⟨last, _, hspan, hstart, hlength, hstop⟩ := span_of_derivesOperand hoperand htiles
    refine ⟨_, rfl, List.pairwise_singleton _ _, List.forall_mem_singleton.mpr ?_⟩
    rw [hspan]
    exact ⟨hstart, hlength, hstop⟩
  | group a b _ ih =>
    obtain ⟨_, _, hgap, hopen, _, hrest⟩ := htiles.uncons
    obtain ⟨mid, hinner, hclose⟩ := hrest.split
    obtain ⟨cs, hcs, horder⟩ := ih hinner
    have hlow : low ≤ a.stop := hgap.start_le_stop.trans hopen.start_le_stop
    exact ⟨cs, hcs, horder.widen hlow hclose.le⟩
  | chain op _ _ ihl ihn =>
    obtain ⟨mid, hleft, hrest⟩ := htiles.split
    obtain ⟨cs, hcs, horder⟩ := ihl hleft
    obtain ⟨ds, hds, horder'⟩ := ihn hrest
    refine ⟨cs ++ ds, ?_, horder.append horder' hleft.le hrest.le⟩
    rw [hds]
    exact congrArg (· ++ ds) hcs
  | stop op left => exact ⟨[], by rw [List.append_nil]; rfl, .nil low high⟩
  | step op s _ _ ihr ihn =>
    obtain ⟨_, _, hgap, hword, _, hrest⟩ := htiles.uncons
    obtain ⟨mid, hright, hmore⟩ := hrest.split
    obtain ⟨cs, hcs, horder⟩ := ihr hright
    obtain ⟨ds, hds, horder'⟩ := ihn hmore
    have hlow : low ≤ s.stop := hgap.start_le_stop.trans hword.start_le_stop
    refine ⟨cs ++ ds, ?_, (horder.append horder' hright.le hmore.le).widen hlow (Nat.le_refl _)⟩
    rw [hds, Phrase.comparisonsBefore, Condition.comparisons_join, hcs]
    simp [Phrase.comparisonsBefore]

end

/-! Pieces of a text that is scanned. -/

namespace Takes

variable {e e' : Expectancy} {low : Nat} {text : List Char}

/-- The scan from one of its tokens on. -/
theorem from_token {v : Vocabulary} {us vs : List Token} {t : Token}
    (h : Takes v e low text (us ++ t :: vs)) (hleads : e.Leads (us.map Token.kind) e') :
    ∃ front rest, text = front ++ rest ∧ t.span.start = low + byteSize front ∧
      Takes v e' t.span.start rest (t :: vs) := by
  induction us generalizing e low text with
  | nil =>
    cases hleads
    cases h with
    | @token _ _ start stop gap tail rest c kind _ _ hc hread hstart hstop hrest =>
      refine ⟨gap, c :: (tail ++ rest), rfl, hstart, ?_⟩
      change Takes v _ start ([] ++ c :: (tail ++ rest)) (⟨kind, ⟨start, stop⟩⟩ :: vs)
      exact .token nofun hc hread rfl hstop hrest
  | cons u us ih =>
    cases h with
    | @token _ _ start stop gap tail rest c kind _ _ _ _ hstart hstop hrest =>
      cases hleads with
      | cons _ hleads =>
        obtain ⟨front, rest', rfl, hspan, hlater⟩ := ih hrest hleads
        refine ⟨gap ++ c :: (tail ++ front), rest', by simp, ?_, hlater⟩
        rw [hspan, hstop, hstart]
        simp [Nat.add_assoc]

/-- The first tokens of a scan are taken from a text that ends with the last of them. -/
theorem cut (v : CheckedVocabulary) (hfree : v.spelling.DigitFree) {vs ws : List Token}
    (htakes : Takes v e low text (vs ++ ws)) (hleads : e.Leads (vs.map Token.kind) e') :
    ∃ piece rest, text = piece ++ rest ∧ Takes v e low piece vs ∧
      (∀ t ∈ vs.getLast?, t.span.stop = low + byteSize piece) ∧
      (∀ t ∈ vs ++ ws, t.span.stop ≤ low + byteSize piece ∨ low + byteSize piece ≤ t.span.start) ∧
      (vs = [] → piece = []) := by
  induction vs generalizing e low text with
  | nil =>
    refine ⟨[], text, rfl, .ended e low nofun, nofun, fun t ht => .inr ?_, fun _ => rfl⟩
    exact (htakes.bounds t ht).1
  | cons t vs ih =>
    cases htakes with
    | @token _ _ start stop gap tail rest c kind _ hgap hc hread hstart hstop hrest =>
    cases hleads with
    | cons hkind hleads =>
    obtain ⟨piece, rest', rfl, hpiece, hlast, hboundary, hnil⟩ := ih hrest hleads
    have hsize : low + byteSize (gap ++ c :: (tail ++ piece)) = stop + byteSize piece := by
      rw [hstop, hstart]
      simp [Nat.add_assoc]
    have hcut : readLexeme v e c (tail ++ piece) = .ok (kind, tail.length) := by
      refine readLexeme_cut v hkind (by simpa using hread) (by simp) fun hlt hsplit hgrown => ?_
      have hne : piece ≠ [] := by
        rintro rfl
        simp at hlt
      rw [← List.cons_append, splitsWord_append hne] at hsplit
      obtain ⟨d, hd, hdigit⟩ := hrest.exists_digit v piece rest' rfl hne hsplit hboundary
      exact hfree.not_digit_of_outgrown hgrown (by simp [hd]) hdigit
    refine ⟨gap ++ c :: (tail ++ piece), rest', by simp, .token hgap hc hcut hstart hstop hpiece,
      ?_, ?_, nofun⟩
    · rw [hsize]
      cases vs with
      | nil => simp [hnil]
      | cons => rwa [List.getLast?_cons_cons]
    · rw [hsize]
      exact List.forall_mem_cons.mpr ⟨.inl (Nat.le_add_right _ _), hboundary⟩

/-- A text that starts at an earlier byte has the same tokens as far earlier. -/
theorem moved_back {v : Vocabulary} {ts : List Token} (h : Takes v e low text ts) {low' n : Nat}
    (hlow : low = low' + n) :
    ∃ us, Takes v e low' text us ∧ ts = us.map (Token.mapSpan (Span.shift n)) := by
  induction h generalizing low' with
  | ended e low hgap => exact ⟨[], .ended e low' hgap, rfl⟩
  | @token e low start stop gap tail rest c kind ts hgap hc hread hstart hstop _ ih =>
    obtain ⟨us, hus, rfl⟩ := @ih (low' + byteSize gap + byteSize (c :: tail)) (by omega)
    refine ⟨_, .token hgap hc hread rfl rfl hus, ?_⟩
    have hspan : (⟨start, stop⟩ : Span) = Span.shift n
        ⟨low' + byteSize gap, low' + byteSize gap + byteSize (c :: tail)⟩ := by
      simp only [Span.shift, Span.mk.injEq]
      omega
    rw [List.map_cons, hspan]
    rfl

end Takes

/-! Excerpts. -/

theorem Span.shift_union (n : Nat) (a b : Span) :
    (a.union b).shift n = (a.shift n).union (b.shift n) := by
  simp only [shift, union, Span.mk.injEq]
  omega

/-- The piece of text that the span of a comparison covers has the tokens of the comparison: a field
stands where one is expected, also when nothing is in front of it. -/
theorem Comparison.SpelledIn.excerpt (v : CheckedVocabulary) (hfree : v.spelling.DigitFree)
    {text : List Char} {ts : List Token} {c : Comparison} (hc : c.SpelledIn ts)
    (htakes : Takes v .field 0 text ts) {e : Expectancy}
    (hleads : Expectancy.field.Leads (ts.map Token.kind) e) {low high : Nat}
    (htiles : Tiles v text low ts high) :
    c.span.start = c.fieldSpan.start ∧ ∃ piece us, c.span.Covers text piece ∧
      Takes v .field 0 piece us ∧
      Derives (.whole .primary) (us.map (Token.mapSpan (Span.shift c.span.start)))
        (.comparison c) := by
  obtain ⟨b, os, span, hoperand, hspan, htokens⟩ := hc
  obtain ⟨_, _, hcomparison⟩ := htiles.of_infix htokens
  obtain ⟨last, hlast, hunion, _⟩ := span_of_derivesOperand hoperand hcomparison
  rw [hunion] at hspan
  have hstart : c.span.start = c.fieldSpan.start := by rw [hspan]
  obtain ⟨before, after, rfl⟩ := htokens
  rw [List.append_assoc, List.map_append, List.map_append] at hleads
  obtain ⟨mid, hbefore, hleads⟩ := hleads.split
  obtain ⟨_, hown, _⟩ := hleads.split
  obtain rfl : mid = .field := by
    cases hown with
    | cons hfield => cases hfield; rfl
  rw [List.append_assoc] at htakes
  obtain ⟨front, rest, rfl, hfront, hfrom⟩ := htakes.from_token hbefore
  obtain ⟨piece, rest, rfl, hpiece, hstop, _⟩ := hfrom.cut v hfree hown
  obtain ⟨us, hus, hmoved⟩ := hpiece.moved_back (Nat.zero_add _).symm
  simp only [Nat.zero_add] at hfront
  refine ⟨hstart, piece, us, ⟨front, rest, by simp, ?_⟩, hus, ?_⟩
  · have hend : last.span.stop = byteSize (front ++ piece) := by
      rw [byteSize_append, ← hfront]
      exact hstop last (by simp [List.getLast?_cons, hlast])
    rw [hspan, hfront, hend]
  · rw [hstart, ← hmoved]
    have hderives := Derives.comparison c.field c.fieldSpan b c.op c.ignoreCase hoperand
    rwa [hunion, ← hspan] at hderives

/-- A comparison is read again from the piece of text that its span covers. -/
theorem Condition.excerpt (v : CheckedVocabulary) (hfree : v.spelling.DigitFree) {text : String}
    {n : Condition} (hn : Condition.ofText v text = .ok n) {c : Comparison}
    (hc : c ∈ n.comparisons) :
    c.span.start = c.fieldSpan.start ∧ ∃ (piece : String) (d : Comparison),
      c.span.Covers text.toList piece.toList ∧
      Condition.ofText v piece = .ok (.comparison d) ∧
      d.mapSpans (Span.shift c.span.start) = c := by
  obtain ⟨ts, finish, hts, htiles, hderives⟩ := tiles_of_ofText v hn
  have hspelled := (hderives.comparison_mem hc).resolve_left List.not_mem_nil
  have hleads : Expectancy.field.Leads (ts.map Token.kind) .connective := by
    rw [hderives.kinds_eq]
    exact n.kinds_lead
  obtain ⟨hstart, piece, us, hcovers, htakes, hmoved⟩ :=
    hspelled.excerpt v hfree (takes_of_tokens v hts) hleads htiles
  obtain ⟨m, hm, heq⟩ := hmoved.of_mapSpans (Span.shift_union c.span.start)
  cases m with
  | comparison d =>
    refine ⟨hstart, String.ofList piece, d, ?_, ?_, Condition.comparison.inj heq⟩
    · rwa [String.toList_ofList]
    · refine ofText_of_takes (hm.loosen (Layer.least_le_primary _))
        (show 1 ≤ maxHeight by decide) ?_
      rwa [String.toList_ofList]
  | _ => cases heq

/-- The spans of a condition are exact: its comparisons stand one after the other in the text, each
from its field on, and the piece of text that is covered by a comparison is read on its own as this
comparison, with its spans counted from the start of the piece. -/
theorem Condition.excerpts_of_ofText {text : String} {n : Condition}
    (hn : Condition.ofText .standard text = .ok n) :
    (n.comparisons.Pairwise fun c d => c.span.stop ≤ d.span.start) ∧
    ∀ c ∈ n.comparisons, c.span.start < c.span.stop ∧ c.span.start = c.fieldSpan.start ∧
      c.fieldSpan.Covers text.toList c.field.toList ∧
      ∃ (piece : String) (d : Comparison), c.span.Covers text.toList piece.toList ∧
        Condition.ofText .standard piece = .ok (.comparison d) ∧
        d.mapSpans (Span.shift c.span.start) = c := by
  obtain ⟨ts, _, _, htiles, hderives⟩ := tiles_of_ofText CheckedVocabulary.standard hn
  have hfree : CheckedVocabulary.standard.spelling.DigitFree := by
    rw [CheckedVocabulary.spelling_standard]
    exact Spelling.digitFree_standard
  obtain ⟨cs, hcs, horder⟩ := hderives.inOrder htiles
  obtain rfl : n.comparisons = cs := hcs
  refine ⟨horder.apart, fun c hc => ⟨(horder.within c hc).2.1, ?_⟩⟩
  obtain ⟨hstart, hexcerpt⟩ :=
    excerpt CheckedVocabulary.standard hfree hn hc
  exact ⟨hstart, (hderives.placed htiles c hc).field, hexcerpt⟩

/-- A sign and an operator with its suffix that nothing is around, and a list in a group. -/
theorem Condition.excerpts_of_ofText_in_groups :
    let text := "(Größe>=-5||Tags ^^[\"ä\", null]) && C==*\"x\""
    ∃ n, Condition.ofText .standard text = .ok n ∧
      n.comparisons.map Comparison.span = [⟨1, 12⟩, ⟨14, 33⟩, ⟨38, 45⟩] ∧
      (n.comparisons.Pairwise fun c d => c.span.stop ≤ d.span.start) ∧
      ∀ c ∈ n.comparisons, c.fieldSpan.Covers text.toList c.field.toList ∧
        ∃ (piece : String) (d : Comparison), c.span.Covers text.toList piece.toList ∧
          Condition.ofText .standard piece = .ok (.comparison d) ∧
          d.mapSpans (Span.shift c.span.start) = c := by
  intro text
  obtain ⟨n, hn, hspans⟩ := exists_ofText_eq .standard text
    (fun n => n.comparisons.map Comparison.span) [⟨1, 12⟩, ⟨14, 33⟩, ⟨38, 45⟩] (by decide +kernel)
  obtain ⟨hapart, hexcerpts⟩ := excerpts_of_ofText hn
  refine ⟨n, hn, hspans, hapart, fun c hc => ?_⟩
  obtain ⟨_, _, hfield, hexcerpt⟩ := hexcerpts c hc
  exact ⟨hfield, hexcerpt⟩

end RecordFilter
