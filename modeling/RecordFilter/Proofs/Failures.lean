import RecordFilter.Proofs.Rules

/-!
Failures point at what they are about: a scan fails at the character that it reports, the reader at
one of the tokens or at the end of the text, and the compiler at the field, at a literal or at the
whole of the first comparison that cannot be compiled.
-/
namespace RecordFilter

/-! The reader fails at a token. -/

def GrammarError.Names (finish : Span) (ts : List Token) (e : GrammarError) : Prop :=
  (∃ t ∈ ts, e.found = .token t.kind ∧ e.span = t.span) ∨ e.found = .nothing ∧ e.span = finish

namespace Reader

def Outcome.Within {α : Type} (finish : Span) (ts : List Token) : Outcome α → Prop
  | .done _ rest => rest <:+ ts
  | .failed e _ _ => e.Names finish ts
  | .outOfCalls => True

section

variable {finish : Span} {ts us rest : List Token}

theorem names_mono {e : GrammarError} (h : e.Names finish us) (hsuffix : us <:+ ts) :
    e.Names finish ts := by
  obtain ⟨t, ht, hfound⟩ | hnothing := h
  · exact .inl ⟨t, hsuffix.mem ht, hfound⟩
  · exact .inr hnothing

theorem Outcome.Within.mono {α : Type} {o : Outcome α} (h : o.Within finish us)
    (hsuffix : us <:+ ts) : o.Within finish ts := by
  cases o with
  | done value rest => exact List.IsSuffix.trans h hsuffix
  | failed e rest openGroups => exact names_mono h hsuffix
  | outOfCalls => trivial

/-- An unexpected token is the next one, and what is missing is missing at the end. -/
theorem names_errorAt (finish : Span) (expected : Expected) (ts : List Token) :
    (errorAt finish expected ts).Names finish ts := by
  cases ts with
  | nil => exact .inr ⟨rfl, rfl⟩
  | cons t ts => exact .inl ⟨t, List.mem_cons_self, rfl, rfl⟩

theorem names_tooHigh (finish : Span) {t : Token} (ht : t ∈ ts) :
    (tooHigh t).Names finish ts := .inl ⟨t, ht, rfl, rfl⟩

/-- A list that fails has only dropped tokens from the front. -/
theorem suffix_of_literals {expected : Expected} (h : literals ts = .error (expected, rest)) :
    rest <:+ ts := by
  induction ts using literals.induct with
  | case1 => simp [literals] at h
  | case2 kind text span s rest' ih =>
    rw [literals] at h
    have hsuffix := ih (map_eq_error_iff.mp h)
    exact (hsuffix.trans (List.suffix_cons _ _)).trans (List.suffix_cons _ _)
  | case3 kind text span rest' =>
    simp only [literals, Except.error.injEq, Prod.mk.injEq] at h
    exact h.2 ▸ List.suffix_cons _ _
  | case4 ts =>
    simp only [literals, Except.error.injEq, Prod.mk.injEq] at h
    exact h.2 ▸ List.suffix_rfl

theorem suffix_of_operand {op : CompareOp} {expected : Expected}
    (h : operand op ts = .error (expected, rest)) : rest <:+ ts := by
  unfold operand at h
  split at h
  · split at h
    · cases h
    · exact (suffix_of_literals (map_eq_error_iff.mp h)).trans (List.suffix_cons _ _)
    · cases h
      exact List.suffix_rfl
  · split at h
    · cases h
      exact List.suffix_rfl
    · cases h
    · cases h
      exact List.suffix_rfl

theorem suffix_of_comparison {field : String} {span : Span} {expected : Expected}
    (h : comparison field span ts = .error (expected, rest)) : rest <:+ ts := by
  unfold comparison at h
  split at h
  · exact (suffix_of_operand (map_eq_error_iff.mp h)).trans (List.suffix_cons _ _)
  · cases h
    exact List.suffix_rfl

theorem suffix_of_comparison_ok {field : String} {span : Span} {c : Comparison}
    (h : comparison field span ts = .ok (c, rest)) : rest <:+ ts := by
  obtain ⟨us, rfl, _⟩ := derives_of_comparison h
  exact List.suffix_append _ _

variable {nested : Nested}

theorem primary_within (hnested : ∀ g least ts, (nested g least ts).Within finish ts) (g : Nat)
    (ts : List Token) : (primary nested finish g ts).Within finish ts := by
  unfold primary
  split
  · next span rest =>
    have hinner := (hnested (g + 1) 0 rest).mono (List.suffix_cons ⟨.openParen, span⟩ rest)
    by_cases hopen : maxHeight ≤ g
    · rw [if_pos hopen]
      exact names_tooHigh finish List.mem_cons_self
    rw [if_neg hopen]
    split
    · next inner height close rest' heq =>
      rw [heq] at hinner
      split
      · exact names_tooHigh finish List.mem_cons_self
      · exact (List.suffix_cons _ _).trans hinner
    · next _ rest' _ heq =>
      rw [heq] at hinner
      exact names_mono (names_errorAt finish .closingParen rest') hinner
    · exact hinner
  · next path span rest =>
    split
    · next c rest' heq => exact (suffix_of_comparison_ok heq).trans (List.suffix_cons _ _)
    · next expected rest' heq =>
      exact names_mono (names_errorAt finish expected rest')
        ((suffix_of_comparison heq).trans (List.suffix_cons _ _))
  · exact names_errorAt finish .fieldOrGroup ts

theorem climb_within (hnested : ∀ g least ts, (nested g least ts).Within finish ts)
    (g least more : Nat) (left : Sized) (ts : List Token) :
    (climb nested g least more left ts).Within finish ts := by
  induction more generalizing left ts with
  | zero => exact List.suffix_rfl
  | succ more ih =>
    obtain ⟨left, height⟩ := left
    by_cases hgo : GoesOn least ts
    · obtain ⟨op, s, rest, rfl, hop⟩ := goesOn_cases least ts hgo
      have hright := (hnested g (op.strength + 1) rest).mono
        (List.suffix_cons ⟨.logical op, s⟩ rest)
      cases hr : nested g (op.strength + 1) rest with
      | failed e rest' g' =>
        rw [climb_failed hop hr]
        rwa [hr] at hright
      | outOfCalls =>
        simp only [climb, hr, if_neg (Nat.not_lt.mpr hop)]
        trivial
      | done right rest' =>
        rw [hr] at hright
        rw [climb_joined hop hr]
        split
        · exact names_tooHigh finish List.mem_cons_self
        · exact (ih _ rest').mono hright
    · rw [climb_stop hgo]
      exact List.suffix_rfl

/-- By induction on the calls, a condition leaves a suffix of its tokens or fails at one of them. -/
theorem condition_within (finish : Span) (calls g least : Nat) (ts : List Token) :
    (condition finish calls g least ts).Within finish ts := by
  induction calls generalizing g least ts with
  | zero => trivial
  | succ calls ih =>
    have hprimary := primary_within ih g ts
    unfold condition
    split
    · next left rest heq =>
      rw [heq] at hprimary
      exact (climb_within ih g least rest.length left rest).mono hprimary
    · exact hprimary

/-- Wherever the reader fails, its error is about one of its tokens or about their end. -/
theorem names_of_read {r : Reader} {e : GrammarError} (h : r.read.1 = .error e) :
    e.Names r.finish r.pending := by
  by_cases hstart : atEnd r.pending = true
  · rw [read_atEnd hstart] at h
    cases h
    exact names_errorAt r.finish .comparison r.pending
  have hwithin := condition_within r.finish callLimit r.openGroups 0 r.pending
  cases hc : condition r.finish callLimit r.openGroups 0 r.pending with
  | outOfCalls => exact absurd hc (callLimit_suffices r.finish r.openGroups r.pending)
  | failed e' rest g =>
    rw [hc] at hwithin
    rw [read_failed hstart hc] at h
    cases h
    exact hwithin
  | done v rest =>
    rw [hc] at hwithin
    rw [read_done hstart hc] at h
    by_cases hrest : atEnd rest = true
    · rw [if_pos hrest] at h
      cases h
    · rw [if_neg hrest] at h
      cases h
      exact names_mono (names_errorAt r.finish .connectiveOrEnd rest) hwithin

end

end Reader

/-! The compiler fails at a comparison. -/

/-- What a compile error says of a comparison, and the place that it gives for it. -/
def CompileError.IsAbout (c : Comparison) : CompileError → Prop
  | .unknownField path span => path = c.field ∧ span = c.fieldSpan
  | .notComparable path _ span => path = c.field ∧ span = c.fieldSpan
  | .typeMismatch path _ found literal span =>
    path = c.field ∧ ⟨found, literal, span⟩ ∈ c.operand.literals
  | .invalidLiteral path literal _ _ span =>
    path = c.field ∧ ∃ kind, ⟨kind, literal, span⟩ ∈ c.operand.literals
  | .unsupportedOperator path _ _ span => path = c.field ∧ span = c.span

section Compile

variable {c : Comparison} {e : CompileError}

theorem isAbout_of_refuses {field : ResolvedField} {l : Literal} (hl : l ∈ c.operand.literals)
    (h : c.Refuses field l e) : e.IsAbout c := by
  cases h with
  | kind => exact ⟨rfl, hl⟩
  | text => exact ⟨rfl, _, hl⟩

/-- Each check of a comparison answers with the span of the field, of a literal or of the whole. -/
theorem isAbout_of_compile {options : CompileOptions} {shape : Shape}
    (h : c.compile options shape = .error e) : e.IsAbout c := by
  obtain hfield | ⟨field, _, hop | ⟨_, hoperand⟩⟩ := Comparison.compile_eq_error_iff.mp h
  · obtain ⟨_, rfl⟩ | ⟨_, _, rfl⟩ := resolveField_eq_error_iff.mp hfield
    · exact ⟨rfl, rfl⟩
    · exact ⟨rfl, rfl⟩
  · obtain ⟨_, rfl⟩ | ⟨_, _, rfl⟩ := checkOperator_eq_error_iff.mp hop
    · exact ⟨rfl, rfl⟩
    · exact ⟨rfl, rfl⟩
  · obtain ⟨_, rfl⟩ | ⟨_, _, l, _, hliterals, _, hl⟩ := coerceOperand_eq_error_iff.mp hoperand
    · exact ⟨rfl, rfl⟩
    · exact isAbout_of_refuses (by simp [hliterals]) hl

/-- The first comparison that cannot be compiled, with the error that it gives. -/
def Condition.FailsAt (options : CompileOptions) (shape : Shape) (n : Condition) (c : Comparison)
    (e : CompileError) : Prop :=
  ∃ before after, n.comparisons = before ++ c :: after ∧
    (∀ b ∈ before, ∃ p, b.compile options shape = .ok p) ∧ c.compile options shape = .error e

/-- A compiled condition has no comparison that fails by itself. -/
theorem Condition.compile_comparisons {options : CompileOptions} {shape : Shape} {n : Condition}
    {p : Predicate} (h : n.compile options shape = .ok p) :
    ∀ c ∈ n.comparisons, ∃ q, c.compile options shape = .ok q := by
  induction n generalizing p with
  | comparison c =>
    intro c' hc
    obtain rfl := List.mem_singleton.mp hc
    exact ⟨p, h⟩
  | and l r ihl ihr | or l r ihl ihr =>
    rw [compile] at h
    obtain ⟨left, hl, h⟩ := bind_eq_ok_iff.mp h
    obtain ⟨right, hr, _⟩ := bind_eq_ok_iff.mp h
    intro c hc
    obtain hc | hc := List.mem_append.mp hc
    · exact ihl hl c hc
    · exact ihr hr c hc
  | group n ih => exact ih h

/-- The error of a condition is that of its leftmost comparison that fails. -/
theorem Condition.failsAt_of_compile {options : CompileOptions} {shape : Shape} {n : Condition}
    (h : n.compile options shape = .error e) : ∃ c, n.FailsAt options shape c e := by
  induction n with
  | comparison c => exact ⟨c, [], [], rfl, nofun, h⟩
  | and l r ihl ihr | or l r ihl ihr =>
    rw [compile] at h
    obtain hl | ⟨left, hl, h⟩ := bind_eq_error_iff.mp h
    · obtain ⟨c, before, after, heq, hbefore, hc⟩ := ihl hl
      exact ⟨c, before, after ++ r.comparisons, by simp [comparisons, heq], hbefore, hc⟩
    · obtain hr | ⟨right, _, h⟩ := bind_eq_error_iff.mp h
      · obtain ⟨c, before, after, heq, hbefore, hc⟩ := ihr hr
        refine ⟨c, l.comparisons ++ before, after, by simp [comparisons, heq], ?_, hc⟩
        intro b hb
        obtain hb | hb := List.mem_append.mp hb
        · exact compile_comparisons hl b hb
        · exact hbefore b hb
      · cases h
  | group n ih => exact ih h

end Compile

/-! Failures of a text. -/

/-- The span starts at a character of the text or at its end, and does not go beyond the end. -/
def Span.Within (text : List Char) (span : Span) : Prop :=
  (∃ before after, text = before ++ after ∧ span.start = byteSize before) ∧
    span.start ≤ span.stop ∧ span.stop ≤ byteSize text

theorem Span.Covers.within {span : Span} {text piece : List Char} (h : span.Covers text piece) :
    span.Within text := by
  have hlength := h.start_le_stop
  have hstop := h.stop_le
  obtain ⟨before, after, htext, rfl⟩ := h
  exact ⟨⟨before, piece ++ after, by simpa using htext, rfl⟩, hlength, hstop⟩

theorem CompileError.IsAbout.within {e : CompileError} {c : Comparison} (h : e.IsAbout c)
    {v : Vocabulary} {text : List Char} (hc : c.Placed v text) : e.span.Within text := by
  have hliteral : ∀ {kind : LiteralKind} {literal : String} {span : Span},
      ⟨kind, literal, span⟩ ∈ c.operand.literals → span.Within text := by
    intro kind literal span hmem
    obtain ⟨piece, hpiece, _⟩ := hc.literals _ hmem
    exact hpiece.within
  cases e with
  | unknownField path span | notComparable path described span =>
    obtain ⟨_, rfl⟩ := h
    exact hc.field.within
  | typeMismatch path expected found literal span => exact hliteral h.2
  | invalidLiteral path literal expected demand span =>
    obtain ⟨_, kind, hmem⟩ := h
    exact hliteral hmem
  | unsupportedOperator path usage kind span =>
    obtain ⟨_, rfl⟩ := h
    obtain ⟨between, written, _, _, hwhole, _⟩ := hc.whole
    exact hwhole.within

/-- What a failure is about. A scan fails at a character, from which the text in its message goes
on; the reader fails at a token or at the end; and the compiler fails at the first comparison that
it cannot compile, with the span of the field, of a literal or of the whole of it. -/
def Failure.PointsAt (configuration : Configuration) (shape : Shape) (text : String) :
    Failure → Prop
  | .scan e => ∃ before c rest, text.toList = before ++ c :: rest ∧
      e.position = byteSize before ∧ Balks c rest e.fault
  | .grammar e => ∃ ts, tokens configuration.vocabulary text = .ok ts ∧
      ((∃ t ∈ ts, t.kind ≠ .endOfInput ∧ e.found = .token t.kind ∧ e.span = t.span) ∨
        (e.found = .token .endOfInput ∨ e.found = .nothing) ∧
          e.span = ⟨byteSize text.toList, byteSize text.toList⟩)
  | .compile e => ∃ n c, Condition.ofText configuration.vocabulary text = .ok n ∧
      n.FailsAt configuration.settings.compileOptions shape c e ∧
      e.IsAbout c ∧ c.Placed configuration.vocabulary text.toList

section Stages

variable {configuration : Configuration} {shape : Shape} {text : String}

/-- A scan error stands at the character whose text it quotes. -/
theorem pointsAt_of_scan {e : ScanError} (he : tokens configuration.vocabulary text = .error e) :
    (Failure.scan e).span.Within text.toList ∧
      (Failure.scan e).PointsAt configuration shape text := by
  obtain ⟨ts, hts, _⟩ | ⟨before, c, rest, fault, hfailed, htext, hbalks⟩ :=
    tokens_cases configuration.vocabulary text
  · rw [hts] at he
    cases he
  · rw [hfailed] at he
    cases he
    have hpos := Char.utf8Size_pos c
    refine ⟨⟨⟨before, c :: rest, htext, rfl⟩, Nat.le_succ _, ?_⟩, before, c, rest, htext, rfl,
      hbalks⟩
    rw [htext, byteSize_append, byteSize_cons]
    simp only [Failure.span]
    omega

/-- A grammar error stands at a token of the text, whose span covers the piece it was read from. -/
theorem pointsAt_of_grammar {us : List Token}
    (hus : tokens configuration.vocabulary text = .ok us) {e : GrammarError}
    (he : Condition.ofTokens us = .error e) :
    e.span.Within text.toList ∧ (Failure.grammar e).PointsAt configuration shape text := by
  obtain ⟨ts, hts, htiles⟩ | ⟨_, _, _, _, hfailed, _⟩ := tokens_cases configuration.vocabulary text
  · rw [hus] at hts
    cases hts
    have hend : Span.Within text.toList ⟨byteSize text.toList, byteSize text.toList⟩ :=
      ⟨⟨text.toList, [], by simp, rfl⟩, Nat.le_refl _, Nat.le_refl _⟩
    obtain ⟨t, ht, hfound, hspan⟩ | ⟨hfound, hspan⟩ := Reader.names_of_read he
    · obtain ht | ht := List.mem_append.mp ht
      · obtain ⟨_, _, piece, hpiece, _⟩ := htiles.covers_of_mem ht
        have hkind := htiles.kind_ne_endOfInput t ht
        exact ⟨hspan ▸ hpiece.within, _, hus, .inl ⟨t, List.mem_append_left _ ht, hkind, hfound,
          hspan⟩⟩
      · obtain rfl := List.mem_singleton.mp ht
        exact ⟨hspan ▸ hend, _, hus, .inr ⟨.inl hfound, hspan⟩⟩
    · have hfinish : e.span = ⟨byteSize text.toList, byteSize text.toList⟩ := by
        rw [hspan, Reader.ofTokens, List.getLast?_concat]
        rfl
      exact ⟨hfinish ▸ hend, _, hus, .inr ⟨.inr hfound, hfinish⟩⟩
  · rw [hus] at hfailed
    cases hfailed

/-- A compile error stands at a part of a comparison, and the parts of a comparison are placed in
the text. -/
theorem pointsAt_of_compile {n : Condition}
    (hn : Condition.ofText configuration.vocabulary text = .ok n) {e : CompileError}
    (he : n.compile configuration.settings.compileOptions shape = .error e) :
    e.span.Within text.toList ∧ (Failure.compile e).PointsAt configuration shape text := by
  obtain ⟨c, hfails⟩ := Condition.failsAt_of_compile he
  have ⟨before, after, hcomparisons, _, hc⟩ := hfails
  have habout := isAbout_of_compile hc
  obtain ⟨ts, _, _, htiles, hderives⟩ := Condition.tiles_of_ofText configuration.vocabulary hn
  have hplaced := hderives.placed htiles c (by simp [hcomparisons])
  exact ⟨habout.within hplaced, n, c, hn, hfails, habout, hplaced⟩

end Stages

end RecordFilter
