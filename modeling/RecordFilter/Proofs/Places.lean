import RecordFilter.Proofs.Reading
import RecordFilter.Proofs.Tiling
import RecordFilter.Query

/-!
Where the parts of a condition stand in its text. Every field is read from the place that its span
covers, every literal from a place that spells it, and a comparison goes from its field to the end
of its operand.
-/
namespace RecordFilter

/-! Pieces that follow each other. -/

namespace Span

theorem union_of_le {a b : Span} (hstart : a.start ≤ b.start) (hstop : a.stop ≤ b.stop) :
    a.union b = ⟨a.start, b.stop⟩ := by
  simp only [union, Nat.min_eq_left hstart, Nat.max_eq_right hstop]

namespace Covers

variable {text p q : List Char} {low mid high : Nat}

theorem append (h : Covers ⟨low, mid⟩ text p) (h' : Covers ⟨mid, high⟩ text q) :
    Covers ⟨low, high⟩ text (p ++ q) := by
  obtain ⟨before, after, htext, hspan⟩ := h
  obtain ⟨before', after', htext', hspan'⟩ := h'
  simp only [Span.mk.injEq] at hspan hspan'
  rw [List.append_assoc before' q after'] at htext'
  obtain ⟨rfl, rfl⟩ := append_eq_of_byteSize (htext.symm.trans htext')
    (hspan.2.symm.trans hspan'.1)
  refine ⟨before, after', by rw [htext]; simp, ?_⟩
  rw [hspan.1, hspan'.2]
  simp

theorem empty_at_start (h : Covers ⟨low, high⟩ text p) : Covers ⟨low, low⟩ text [] := by
  obtain ⟨before, after, rfl, hspan⟩ := h
  simp only [Span.mk.injEq] at hspan
  exact ⟨before, p ++ after, by simp, by simp [hspan.1]⟩

theorem empty_at_stop (h : Covers ⟨low, high⟩ text p) : Covers ⟨high, high⟩ text [] := by
  obtain ⟨before, after, rfl, hspan⟩ := h
  simp only [Span.mk.injEq] at hspan
  exact ⟨before ++ p, after, by simp, by simp [hspan.2]⟩

end Covers

end Span

namespace Tiles

variable {v : Vocabulary} {text : List Char} {low high : Nat} {t : Token} {ts us : List Token}

/-- Tokens that tile a stretch of text cover it together with the blanks around them. -/
theorem covers (h : Tiles v text low ts high) : ∃ piece, Span.Covers ⟨low, high⟩ text piece := by
  induction h with
  | gap hgap => exact ⟨_, hgap⟩
  | token hgap _ hpiece _ _ _ ih =>
    obtain ⟨rest, hrest⟩ := ih
    exact ⟨_, (hgap.append hpiece).append hrest⟩

theorem le (h : Tiles v text low ts high) : low ≤ high := by
  obtain ⟨piece, hcovers⟩ := h.covers
  exact hcovers.start_le_stop

theorem split (h : Tiles v text low (ts ++ us) high) :
    ∃ mid, Tiles v text low ts mid ∧ Tiles v text mid us high := by
  induction ts generalizing low with
  | nil =>
    obtain ⟨piece, hcovers⟩ := h.covers
    exact ⟨low, .gap hcovers.empty_at_start nofun, h⟩
  | cons t ts ih =>
    cases h with
    | token hgap hblank hpiece hne hkind hrest =>
      obtain ⟨mid, hts, hus⟩ := ih hrest
      exact ⟨mid, .token hgap hblank hpiece hne hkind hts, hus⟩

theorem of_infix (h : Tiles v text low ts high) (hus : us <:+: ts) :
    ∃ low' high', Tiles v text low' us high' := by
  obtain ⟨before, after, rfl⟩ := hus
  obtain ⟨_, h, _⟩ := h.split
  obtain ⟨low', _, h⟩ := h.split
  exact ⟨low', _, h⟩

/-- The first token of a tiling has a gap in front of it and the other tokens behind it. -/
theorem uncons (h : Tiles v text low (t :: ts) high) :
    ∃ gap piece, Span.Covers ⟨low, t.span.start⟩ text gap ∧ t.span.Covers text piece ∧
      t.kind.SpelledBy v piece ∧ Tiles v text t.span.stop ts high := by
  cases h with
  | token hgap _ hpiece _ hkind hts => exact ⟨_, _, hgap, hpiece, hkind, hts⟩

/-- A token lies within the stretch, on a piece that spells it. -/
theorem covers_of_mem (h : Tiles v text low ts high) (ht : t ∈ ts) :
    low ≤ t.span.start ∧ t.span.stop ≤ high ∧
      ∃ piece, t.span.Covers text piece ∧ piece ≠ [] ∧ t.kind.SpelledBy v piece := by
  induction h with
  | gap => cases ht
  | @token low high t' ts gap piece hgap hblank hpiece hne hkind hts ih =>
    have hlow : low ≤ t'.span.start := hgap.start_le_stop
    have hlength : t'.span.start ≤ t'.span.stop := hpiece.start_le_stop
    have hhigh : t'.span.stop ≤ high := hts.covers.choose_spec.start_le_stop
    obtain rfl | ht := List.mem_cons.mp ht
    · exact ⟨hlow, hhigh, piece, hpiece, hne, hkind⟩
    · obtain ⟨hstart, hstop, hspelled⟩ := ih ht
      exact ⟨by omega, hstop, hspelled⟩

/-- The blanks after the last token can be left out. -/
theorem up_to_last (h : Tiles v text low ts high) (hlast : ts.getLast? = some t) :
    Tiles v text low ts t.span.stop := by
  induction h with
  | gap => cases hlast
  | @token low high t' ts gap piece hgap hblank hpiece hne hkind hts ih =>
    refine .token hgap hblank hpiece hne hkind ?_
    cases ts with
    | nil =>
      cases hlast
      exact .gap hpiece.empty_at_stop nofun
    | cons u us => exact ih (by rwa [List.getLast?_cons_cons] at hlast)

/-- So can the blanks before the first one. -/
theorem from_first (h : Tiles v text low ts high) (hfirst : ts.head? = some t) :
    (∃ gap, Span.Covers ⟨low, t.span.start⟩ text gap) ∧ Tiles v text t.span.start ts high := by
  cases h with
  | gap => cases hfirst
  | token hgap hblank hpiece hne hkind hts =>
    cases hfirst
    exact ⟨⟨_, hgap⟩, .token hpiece.empty_at_start nofun hpiece hne hkind hts⟩

end Tiles

/-! The tokens of a text. -/

/-- A scan that ends in an error has no tokens to give, however many came before. -/
theorem allTokens_failed (ts : List Token) (e : ScanError) :
    allTokens (ts.map .ok ++ [.error e]) = .error e := by
  induction ts with
  | nil => rfl
  | cons t ts ih =>
    simp only [List.map_cons, List.cons_append, allTokens, ih]
    rfl

/-- A text has tokens that tile the whole of it, or it has none because of a place inside it. -/
theorem tokens_cases (v : CheckedVocabulary) (text : String) :
    (∃ ts, tokens v text =
        .ok (ts ++ [⟨.endOfInput, ⟨byteSize text.toList, byteSize text.toList⟩⟩]) ∧
      Tiles v text.toList 0 ts (byteSize text.toList)) ∨
    ∃ before c rest fault, tokens v text = .error ⟨byteSize before, fault⟩ ∧
      text.toList = before ++ c :: rest ∧ Balks c rest fault := by
  have htiled := tiledBy_scanFrom v .field 0 text.toList [] rfl
  change TiledBy _ _ _ (scan v text) at htiled
  generalize hsteps : scan v text = steps at htiled
  cases htiled with
  | @ended ts hts =>
    refine .inl ⟨ts, allTokens_eq_ok_iff.mpr ?_, hts⟩
    rw [hsteps, List.map_append]
    rfl
  | @failed ts before rest c fault htext _ hbalks =>
    refine .inr ⟨before, c, rest, fault, ?_, htext, hbalks⟩
    rw [tokens, hsteps, allTokens_failed]

/-- What is read as a condition is tiled by the tokens that spell it. -/
theorem Condition.tiles_of_ofText (v : CheckedVocabulary) {text : String} {n : Condition}
    (hn : Condition.ofText v text = .ok n) :
    ∃ ts finish, tokens v text = .ok (ts ++ [⟨.endOfInput, finish⟩]) ∧
      Tiles v text.toList 0 ts (byteSize text.toList) ∧
      Derives (.whole .expression) ts n := by
  obtain ⟨us, hus, hread⟩ := ofText_eq_ok_iff.mp hn
  obtain ⟨ts, hts, htiles⟩ | ⟨_, _, _, _, hfailed, _⟩ := tokens_cases v text
  · rw [hus] at hts
    cases hts
    obtain ⟨vs, rest, heq, hrest, hvs, _⟩ := derives_of_ofTokens hread
    have hend := n.endOfInput_not_mem_kinds
    rw [← hvs.kinds_eq] at hend
    have hkinds : .endOfInput ∉ ts.map Token.kind := by
      intro hmem
      obtain ⟨t, ht, hkind⟩ := List.mem_map.mp hmem
      exact htiles.kind_ne_endOfInput t ht hkind
    have hsame : ts = vs := by
      rw [← beforeEnd_append hend hrest, ← heq, beforeEnd_append hkinds rfl]
    exact ⟨ts, _, hus, htiles, hsame ▸ hvs⟩
  · rw [hus] at hfailed
    cases hfailed

/-! Comparisons. -/

def Operand.literals : Operand → List Literal
  | .single l => [l]
  | .list ls => ls

theorem DerivesLiterals.token_mem {ts : List Token} {ls : List Literal}
    (h : DerivesLiterals ts ls) : ∀ l ∈ ls, l.token ∈ ts := by
  induction h with
  | last l => simp
  | more l s h ih => simp_all

theorem DerivesOperand.token_mem {op : CompareOp} {ts : List Token} {x : Operand} {s : Span}
    (h : DerivesOperand op ts x s) : ∀ l ∈ x.literals, l.token ∈ ts := by
  cases h with
  | single l => simp [Operand.literals]
  | noLiterals => simp [Operand.literals]
  | literals a b hop hl =>
    intro l hmem
    simp [hl.token_mem l hmem]

/-- The span of an operand goes from its first token to its last one. -/
theorem DerivesOperand.ends {op : CompareOp} {ts : List Token} {x : Operand} {s : Span}
    (h : DerivesOperand op ts x s) : ∃ first last, ts.head? = some first ∧
      ts.getLast? = some last ∧ s = first.span.union last.span := by
  cases h with
  | single l => exact ⟨l.token, l.token, rfl, rfl, by simp [Span.union, Literal.token]⟩
  | noLiterals a b => exact ⟨_, _, rfl, rfl, rfl⟩
  | literals a b hop hl =>
    refine ⟨⟨.openBracket, a⟩, ⟨.closeBracket, b⟩, rfl, ?_, rfl⟩
    rw [← List.cons_append, List.getLast?_concat]

/-- Where a comparison stands in a text: its field and its literals on pieces that spell them, and
the whole from the field up to the end of the operand, the last part of it tiled by the tokens of
the operand. -/
structure Comparison.Placed (v : Vocabulary) (text : List Char) (c : Comparison) : Prop where
  field : c.fieldSpan.Covers text c.field.toList
  literals : ∀ l ∈ c.operand.literals,
    ∃ piece, l.span.Covers text piece ∧ l.tokenKind.SpelledBy v piece
  whole : ∃ between written ts s, c.span.Covers text (c.field.toList ++ between ++ written) ∧
    s.Covers text written ∧ DerivesOperand c.op ts c.operand s ∧ Tiles v text s.start ts s.stop

/-- Tokens of an operand that tile a stretch cover its span. -/
theorem DerivesOperand.placed {v : Vocabulary} {text : List Char} {op : CompareOp}
    {ts : List Token} {x : Operand} {s : Span} {low high : Nat} (h : DerivesOperand op ts x s)
    (htiles : Tiles v text low ts high) :
    (∃ gap, Span.Covers ⟨low, s.start⟩ text gap) ∧ (∃ written, s.Covers text written) ∧
      Tiles v text s.start ts s.stop := by
  obtain ⟨first, last, hfirst, hlast, rfl⟩ := h.ends
  obtain ⟨hgap, htrimmed⟩ := (htiles.up_to_last hlast).from_first hfirst
  have hstart := (htrimmed.covers_of_mem (List.mem_of_getLast? hlast)).1
  have hstop := (htrimmed.covers_of_mem (List.mem_of_head? hfirst)).2.1
  rw [Span.union_of_le hstart hstop]
  exact ⟨hgap, htrimmed.covers, htrimmed⟩

/-- By induction on how it is derived, each comparison of a condition stands where its tokens do:
the field, the operator and the operand follow each other with gaps between them. -/
theorem Derives.placed {v : Vocabulary} {text : List Char} {low high : Nat} {ts : List Token}
    {n : Condition} (h : Derives (.whole .expression) ts n) (htiles : Tiles v text low ts high) :
    ∀ c ∈ n.comparisons, c.Placed v text := by
  intro c hc
  obtain hbefore | ⟨b, os, s, hoperand, hspan, htokens⟩ := h.comparison_mem hc
  · cases hbefore
  obtain ⟨low', high', hcomparison⟩ := htiles.of_infix htokens
  obtain ⟨_, path, _, hfield, hpath, hrest⟩ := hcomparison.uncons
  obtain ⟨gap, word, hgap, hword, _, hos⟩ := hrest.uncons
  obtain ⟨⟨gap', hgap'⟩, ⟨written, hwritten⟩, hinner⟩ := hoperand.placed hos
  simp only at hfield hgap hword hgap' hos
  obtain rfl : path = c.field.toList := hpath
  have hwhole := hfield.append (hgap.append (hword.append (hgap'.append hwritten)))
  have hunion : c.fieldSpan.union s = ⟨c.fieldSpan.start, s.stop⟩ := by
    have hlength := hfield.start_le_stop
    have hbefore : c.fieldSpan.stop ≤ s.start :=
      (hgap.append (hword.append hgap')).start_le_stop
    have hstop := hwritten.start_le_stop
    exact Span.union_of_le (by omega) (by omega)
  refine ⟨hfield, ?_, gap ++ word ++ gap', written, os, s, ?_, hwritten, hoperand, hinner⟩
  · intro l hl
    obtain ⟨_, _, piece, hpiece, _, hspelled⟩ := hos.covers_of_mem (hoperand.token_mem l hl)
    exact ⟨piece, hpiece, hspelled⟩
  · rw [hspan, hunion]
    simpa [List.append_assoc] using hwhole

end RecordFilter
