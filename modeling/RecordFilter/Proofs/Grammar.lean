import RecordFilter.Condition.Read

/-!
The grammar of conditions, apart from any way of reading them. An expression is a chain of
conjunctions joined by `or`, and a conjunction is a chain of comparisons and groups joined by
`and`. Each chain is one tree that groups to the left, and no tokens are derived to two trees.
-/
namespace RecordFilter

inductive Layer where
  | expression | conjunction | primary
  deriving DecidableEq

/-- The least strength of a connective that is taken in on a layer. -/
def Layer.least : Layer → Nat
  | .expression => 0
  | .conjunction => 2
  | .primary => 4

def LogicalOp.layer : LogicalOp → Layer
  | .or => .expression
  | .and => .conjunction

def LogicalOp.operandLayer : LogicalOp → Layer
  | .or => .conjunction
  | .and => .primary

theorem LogicalOp.least_layer_le (op : LogicalOp) : op.layer.least ≤ op.strength := by
  cases op <;> decide

/-- A layer that takes in a connective takes in the chains that it joins. -/
theorem LogicalOp.least_le_layer {op : LogicalOp} {layer : Layer} (h : layer.least ≤ op.strength) :
    layer.least ≤ op.layer.least := by
  cases layer <;> cases op <;> simp_all [Layer.least, layer, strength]

theorem Layer.least_le_primary (layer : Layer) : layer.least ≤ Layer.primary.least := by
  cases layer <;> decide

/-- What is joined to a chain binds more tightly than the chain, so chains lean to the left. -/
theorem LogicalOp.least_operandLayer (op : LogicalOp) :
    op.operandLayer.least = op.strength + 1 := by
  cases op <;> rfl

theorem LogicalOp.strength_lt_primary (op : LogicalOp) : op.strength < Layer.primary.least := by
  cases op <;> decide

def GoesOn (least : Nat) : List Token → Prop
  | ⟨.logical op, _⟩ :: _ => least ≤ op.strength
  | _ => False

@[simp] theorem goesOn_nil (least : Nat) : ¬ GoesOn least [] := id
@[simp] theorem goesOn_logical (least : Nat) (op : LogicalOp) (s : Span) (ts : List Token) :
    GoesOn least (⟨.logical op, s⟩ :: ts) ↔ least ≤ op.strength := Iff.rfl
@[simp] theorem goesOn_closeParen (least : Nat) (s : Span) (ts : List Token) :
    ¬ GoesOn least (⟨.closeParen, s⟩ :: ts) := id

/-- Only a connective goes on with a chain. -/
theorem goesOn_cases (least : Nat) (ts : List Token) (h : GoesOn least ts) :
    ∃ op s rest, ts = ⟨.logical op, s⟩ :: rest ∧ least ≤ op.strength := by
  match ts, h with
  | ⟨.logical op, s⟩ :: rest, h => exact ⟨op, s, rest, rfl, h⟩

/-- A connective that is taken in at one strength is taken in at every lower one. -/
theorem goesOn_mono {least least' : Nat} (hle : least ≤ least') {ts : List Token}
    (h : GoesOn least' ts) : GoesOn least ts := by
  obtain ⟨op, s, rest, rfl, hop⟩ := goesOn_cases least' ts h
  exact Nat.le_trans hle hop

theorem not_goesOn_operandLayer {op : LogicalOp} {ts : List Token}
    (h : ¬ GoesOn op.layer.least ts) : ¬ GoesOn op.operandLayer.least ts :=
  fun hg => h (goesOn_mono (by cases op <;> decide) hg)

theorem not_goesOn_primary (ts : List Token) : ¬ GoesOn Layer.primary.least ts := by
  intro h
  obtain ⟨op, s, rest, rfl, hop⟩ := goesOn_cases _ ts h
  have := op.strength_lt_primary
  omega

def Literal.tokenKind (l : Literal) : TokenKind := .literal l.kind l.text

def Literal.token (l : Literal) : Token := ⟨l.tokenKind, l.span⟩

/-- A literal is all that its token says. -/
theorem Literal.token_injective {l m : Literal} (h : l.token = m.token) : l = m := by
  cases l
  cases m
  simp_all [Literal.token, Literal.tokenKind]

inductive DerivesLiterals : List Token → List Literal → Prop
  | last (l : Literal) : DerivesLiterals [l.token] [l]
  | more (l : Literal) (s : Span) {ts : List Token} {ls : List Literal} :
    DerivesLiterals ts ls → DerivesLiterals (l.token :: ⟨.comma, s⟩ :: ts) (l :: ls)

/-- The operand of an operator, with the span that its tokens cover. Only membership is asked of a
list of literals, and everything else of one literal. -/
inductive DerivesOperand (op : CompareOp) : List Token → Operand → Span → Prop
  | single (l : Literal) :
    op ∉ [CompareOp.isIn, .isNotIn] → DerivesOperand op [l.token] (.single l) l.span
  | noLiterals (a b : Span) :
    op ∈ [CompareOp.isIn, .isNotIn] →
    DerivesOperand op [⟨.openBracket, a⟩, ⟨.closeBracket, b⟩] (.list []) (a.union b)
  | literals (a b : Span) {ts : List Token} {ls : List Literal} :
    op ∈ [CompareOp.isIn, .isNotIn] → DerivesLiterals ts ls →
    DerivesOperand op (⟨.openBracket, a⟩ :: (ts ++ [⟨.closeBracket, b⟩])) (.list ls) (a.union b)

/-- What tokens can be: the whole of a condition on some layer, or what comes after the left
operand of a chain. -/
inductive Phrase where
  | whole (layer : Layer)
  | onward (op : LogicalOp) (left : Condition)

/-- The tokens of a phrase and the condition that they spell. -/
inductive Derives : Phrase → List Token → Condition → Prop
  | comparison (path : String) (a b : Span) (op : CompareOp) (ignoreCase : Bool)
      {ts : List Token} {operand : Operand} {span : Span} :
    DerivesOperand op ts operand span →
    Derives (.whole .primary) (⟨.field path, a⟩ :: ⟨.comparison op ignoreCase, b⟩ :: ts)
      (.comparison ⟨path, a, op, ignoreCase, operand, a.union span⟩)
  | group (a b : Span) {ts : List Token} {n : Condition} :
    Derives (.whole .expression) ts n →
    Derives (.whole .primary) (⟨.openParen, a⟩ :: (ts ++ [⟨.closeParen, b⟩])) (.group n)
  | chain (op : LogicalOp) {ts us : List Token} {left n : Condition} :
    Derives (.whole op.operandLayer) ts left → Derives (.onward op left) us n →
    Derives (.whole op.layer) (ts ++ us) n
  | stop (op : LogicalOp) (left : Condition) : Derives (.onward op left) [] left
  | step (op : LogicalOp) (s : Span) {ts us : List Token} {left right n : Condition} :
    Derives (.whole op.operandLayer) ts right →
    Derives (.onward op (.join op left right)) us n →
    Derives (.onward op left) (⟨.logical op, s⟩ :: (ts ++ us)) n

namespace Derives

/-- A chain can be lengthened at its end. -/
theorem snoc_onward {op : LogicalOp} {left n r : Condition} {ts us : List Token} (s : Span)
    (h : Derives (.onward op left) ts n) (hr : Derives (.whole op.operandLayer) us r) :
    Derives (.onward op left) (ts ++ ⟨.logical op, s⟩ :: us) (.join op n r) := by
  generalize hp : Phrase.onward op left = p at h
  induction h generalizing left with
  | comparison | group | chain => cases hp
  | stop op' left' =>
    cases hp
    simpa using step op s hr (stop op _)
  | step op' s' hright _ _ ih =>
    cases hp
    simpa [List.append_assoc] using step op s' hright (ih rfl)

/-- A chain is a first operand and what comes after it. -/
theorem whole_layer_iff {op : LogicalOp} {ts : List Token} {n : Condition} :
    Derives (.whole op.layer) ts n ↔ ∃ us vs left, ts = us ++ vs ∧
      Derives (.whole op.operandLayer) us left ∧ Derives (.onward op left) vs n := by
  constructor
  · intro h
    generalize hp : Phrase.whole op.layer = p at h
    cases h with
    | comparison | group => cases op <;> cases hp
    | stop | step => cases hp
    | chain op' hl hn =>
      have hop : op = op' := by cases op <;> cases op' <;> first | rfl | cases hp
      subst hop
      exact ⟨_, _, _, rfl, hl, hn⟩
  · rintro ⟨us, vs, left, rfl, hl, hn⟩
    exact chain op hl hn

/-- One link makes a chain. -/
theorem of_operandLayer {op : LogicalOp} {ts : List Token} {n : Condition}
    (h : Derives (.whole op.operandLayer) ts n) : Derives (.whole op.layer) ts n := by
  simpa using chain op h (stop op n)

/-- A condition of a tighter layer is one of every looser layer. -/
theorem loosen {layer layer' : Layer} {ts : List Token} {n : Condition}
    (h : Derives (.whole layer') ts n) (hle : layer.least ≤ layer'.least) :
    Derives (.whole layer) ts n := by
  have hand : Derives (.whole .primary) ts n → Derives (.whole .conjunction) ts n :=
    @of_operandLayer .and ts n
  have hor : Derives (.whole .conjunction) ts n → Derives (.whole .expression) ts n :=
    @of_operandLayer .or ts n
  cases layer <;> cases layer' <;> first
    | exact h
    | exact hand h
    | exact hor h
    | exact hor (hand h)
    | exact absurd hle (by decide)

theorem join {op : LogicalOp} {ts us : List Token} {l r : Condition} (s : Span)
    (hl : Derives (.whole op.layer) ts l) (hr : Derives (.whole op.operandLayer) us r) :
    Derives (.whole op.layer) (ts ++ ⟨.logical op, s⟩ :: us) (.join op l r) := by
  obtain ⟨vs, ws, left, rfl, hleft, hn⟩ := whole_layer_iff.mp hl
  simpa [List.append_assoc] using chain op hleft (hn.snoc_onward s hr)

end Derives

/-! The kinds of the tokens that spell a condition, in order. -/

def Operand.kinds : Operand → List TokenKind
  | .single l => [l.tokenKind]
  | .list ls =>
    .openBracket :: ((ls.map Literal.tokenKind).intersperse .comma ++ [.closeBracket])

def Comparison.kinds (c : Comparison) : List TokenKind :=
  .field c.field :: .comparison c.op c.ignoreCase :: c.operand.kinds

def Condition.kinds : Condition → List TokenKind
  | .comparison c => c.kinds
  | .and l r => l.kinds ++ .logical .and :: r.kinds
  | .or l r => l.kinds ++ .logical .or :: r.kinds
  | .group n => .openParen :: (n.kinds ++ [.closeParen])

@[simp] theorem Condition.kinds_join (op : LogicalOp) (l r : Condition) :
    (Condition.join op l r).kinds = l.kinds ++ .logical op :: r.kinds := by
  cases op <;> rfl

theorem DerivesLiterals.map_kind {ts : List Token} {ls : List Literal}
    (h : DerivesLiterals ts ls) :
    ts.map Token.kind = (ls.map Literal.tokenKind).intersperse .comma := by
  induction h with
  | last l => rfl
  | more l s h ih =>
    cases h <;> simp_all [Literal.token]

theorem DerivesOperand.map_kind {op : CompareOp} {ts : List Token} {operand : Operand}
    {span : Span} (h : DerivesOperand op ts operand span) :
    ts.map Token.kind = operand.kinds := by
  cases h with
  | single l => rfl
  | noLiterals => rfl
  | literals a b hop hl => simp [Operand.kinds, hl.map_kind]

def Phrase.kindsBefore : Phrase → List TokenKind
  | .whole _ => []
  | .onward _ left => left.kinds

namespace Derives

/-- The tokens of a phrase are those of its condition, each once and in order. -/
theorem map_kind {p : Phrase} {ts : List Token} {n : Condition} (h : Derives p ts n) :
    n.kinds = p.kindsBefore ++ ts.map Token.kind := by
  induction h with
  | comparison path a b op ic hop =>
    simp [Condition.kinds, Comparison.kinds, Phrase.kindsBefore, hop.map_kind]
  | group a b h ih => simp_all [Condition.kinds, Phrase.kindsBefore]
  | chain op hl hn ihl ihn => simp_all [Phrase.kindsBefore]
  | stop op left => simp [Phrase.kindsBefore]
  | step op s hr hn ihr ihn => simp_all [Phrase.kindsBefore]

/-- The kinds of the tokens of a condition are told by the condition. -/
theorem kinds_eq {layer : Layer} {ts : List Token} {n : Condition}
    (h : Derives (.whole layer) ts n) : ts.map Token.kind = n.kinds := by
  simpa [Phrase.kindsBefore] using h.map_kind.symm

end Derives

theorem Operand.endOfInput_not_mem_kinds (o : Operand) : .endOfInput ∉ o.kinds := by
  cases o with
  | single l => simp [Operand.kinds, Literal.tokenKind]
  | list ls =>
    have h : ∀ ks : List TokenKind, .endOfInput ∉ ks → .endOfInput ∉ ks.intersperse .comma := by
      intro ks hk
      induction ks with
      | nil => simp
      | cons k ks ih => cases ks <;> simp_all
    simp [Operand.kinds, h, Literal.tokenKind]

/-- No condition takes in the end of the input. -/
theorem Condition.endOfInput_not_mem_kinds (n : Condition) : .endOfInput ∉ n.kinds := by
  induction n with
  | comparison c => simp [Condition.kinds, Comparison.kinds, c.operand.endOfInput_not_mem_kinds]
  | and l r hl hr => simp [Condition.kinds, hl, hr]
  | or l r hl hr => simp [Condition.kinds, hl, hr]
  | group n ih => simp [Condition.kinds, ih]

theorem Condition.kinds_ne_nil (n : Condition) : n.kinds ≠ [] := by
  cases n <;> simp [Condition.kinds, Comparison.kinds]

/-! The comparisons of a condition stand in its tokens. -/

theorem Condition.comparisons_join (op : LogicalOp) (l r : Condition) :
    (Condition.join op l r).comparisons = l.comparisons ++ r.comparisons := by
  cases op <;> rfl

def Phrase.comparisonsBefore : Phrase → List Comparison
  | .whole _ => []
  | .onward _ left => left.comparisons

def Comparison.SpelledIn (ts : List Token) (c : Comparison) : Prop :=
  ∃ b os s, DerivesOperand c.op os c.operand s ∧ c.span = c.fieldSpan.union s ∧
    ⟨.field c.field, c.fieldSpan⟩ :: ⟨.comparison c.op c.ignoreCase, b⟩ :: os <:+: ts

theorem Comparison.SpelledIn.mono {c : Comparison} {ts us : List Token} (h : c.SpelledIn us)
    (hus : us <:+: ts) : c.SpelledIn ts := by
  obtain ⟨b, os, s, hoperand, hspan, htokens⟩ := h
  exact ⟨b, os, s, hoperand, hspan, htokens.trans hus⟩

/-- A comparison of a phrase is taken over, or its tokens are among those of the phrase. -/
theorem Derives.comparison_mem {p : Phrase} {ts : List Token} {n : Condition} (h : Derives p ts n)
    {c : Comparison} (hc : c ∈ n.comparisons) : c ∈ p.comparisonsBefore ∨ c.SpelledIn ts := by
  have hwhole : ∀ {layer : Layer} {us : List Token},
      c ∈ (Phrase.whole layer).comparisonsBefore ∨ c.SpelledIn us → c.SpelledIn us :=
    fun h => h.resolve_left List.not_mem_nil
  induction h with
  | comparison path a b op ic hop =>
    obtain rfl := List.mem_singleton.mp hc
    exact .inr ⟨b, _, _, hop, rfl, List.infix_rfl⟩
  | group a b h ih =>
    exact .inr ((hwhole (ih hc)).mono (List.infix_cons (List.prefix_append _ _).isInfix))
  | chain op hl hn ihl ihn =>
    obtain hleft | hmore := ihn hc
    · exact .inr ((hwhole (ihl hleft)).mono (List.prefix_append _ _).isInfix)
    · exact .inr (hmore.mono (List.suffix_append _ _).isInfix)
  | stop op left => exact .inl hc
  | step op s hr hn ihr ihn =>
    obtain hjoined | hmore := ihn hc
    · rw [Phrase.comparisonsBefore, Condition.comparisons_join, List.mem_append] at hjoined
      obtain hleft | hright := hjoined
      · exact .inl hleft
      · exact .inr ((hwhole (ihr hright)).mono (List.infix_cons (List.prefix_append _ _).isInfix))
    · exact .inr (hmore.mono (List.infix_cons (List.suffix_append _ _).isInfix))

/-! No tokens are derived to two conditions, whatever comes after them. -/

/-- Literals up to a closing bracket are read in one way only. -/
theorem DerivesLiterals.unique {ts us a b : List Token} {ls ms : List Literal} {s s' : Span}
    (h : DerivesLiterals ts ls) (h' : DerivesLiterals us ms)
    (heq : ts ++ ⟨.closeBracket, s⟩ :: a = us ++ ⟨.closeBracket, s'⟩ :: b) :
    ls = ms ∧ s = s' ∧ a = b := by
  induction h generalizing us ms with
  | last l =>
    cases h' with
    | last m =>
      simp only [List.cons_append, List.nil_append, List.cons.injEq, Token.mk.injEq, true_and]
        at heq
      exact ⟨by rw [Literal.token_injective heq.1], heq.2⟩
    | more m s' h' => simp at heq
  | more l s h ih =>
    cases h' with
    | last m => simp at heq
    | more m s' h' =>
      simp only [List.cons_append, List.cons.injEq] at heq
      obtain ⟨rfl, hrest⟩ := ih h' heq.2.2
      exact ⟨by rw [Literal.token_injective heq.1], hrest⟩

/-- An operand is read in one way only, whatever comes after it. -/
theorem DerivesOperand.unique {op : CompareOp} {ts us a b : List Token} {x y : Operand}
    {s s' : Span} (h : DerivesOperand op ts x s) (h' : DerivesOperand op us y s')
    (heq : ts ++ a = us ++ b) : x = y ∧ s = s' ∧ a = b := by
  cases h with
  | single l hop =>
    cases h' with
    | single m =>
      simp only [List.cons_append, List.nil_append, List.cons.injEq] at heq
      obtain rfl := Literal.token_injective heq.1
      exact ⟨rfl, rfl, heq.2⟩
    | noLiterals a b hop' => simp [hop] at hop'
    | literals a b hop' => simp [hop] at hop'
  | noLiterals a b hop =>
    cases h' with
    | single m hop' => simp [hop] at hop'
    | noLiterals => simp_all
    | literals a' b' _ hl => cases hl <;> simp_all [Literal.token, Literal.tokenKind]
  | literals a b hop hl =>
    cases h' with
    | single m hop' => simp [hop] at hop'
    | noLiterals => cases hl <;> simp_all [Literal.token, Literal.tokenKind]
    | literals a' b' _ hl' =>
      simp only [List.cons_append, List.append_assoc, List.nil_append, List.cons.injEq,
        Token.mk.injEq, true_and] at heq
      obtain ⟨rfl, rfl, rfl⟩ := hl.unique hl' heq.2
      exact ⟨rfl, by rw [heq.1], rfl⟩

/-- Where a phrase may end: no connective of its own kind may come next. -/
def Phrase.EndsBefore (ts : List Token) : Phrase → Prop
  | .whole layer => ¬ GoesOn layer.least ts
  | .onward op _ => ¬ GoesOn op.layer.least ts

namespace Derives

/-- What follows a link of a chain does not belong to the link. -/
theorem endsBefore_link {op : LogicalOp} {left n : Condition} {ts a : List Token}
    (h : Derives (.onward op left) ts n) (ha : ¬ GoesOn op.operandLayer.least a) :
    ¬ GoesOn op.operandLayer.least (ts ++ a) := by
  cases h with
  | stop => exact ha
  | step =>
    simp only [List.cons_append, goesOn_logical, op.least_operandLayer]
    omega

/-- Tokens are split in one way into a phrase and what may come after it, by induction on how they
are derived. -/
theorem unique_prefix {p : Phrase} {ts us a b : List Token} {n m : Condition}
    (h : Derives p ts n) (h' : Derives p us m) (heq : ts ++ a = us ++ b)
    (ha : p.EndsBefore a) (hb : p.EndsBefore b) : n = m ∧ a = b := by
  induction h generalizing us m a b with
  | comparison path s s' op ic hop =>
    generalize hp : Phrase.whole Layer.primary = p at h'
    cases h' with
    | comparison path' r r' op' ic' hop' =>
      simp only [List.cons_append, List.cons.injEq, Token.mk.injEq, TokenKind.field.injEq,
        TokenKind.comparison.injEq] at heq
      obtain ⟨⟨rfl, rfl⟩, ⟨⟨rfl, rfl⟩, rfl⟩, heq⟩ := heq
      obtain ⟨rfl, rfl, rfl⟩ := hop.unique hop' heq
      exact ⟨rfl, rfl⟩
    | group => simp at heq
    | chain op' => cases op' <;> cases hp
    | stop | step => cases hp
  | group s s' hn ih =>
    generalize hp : Phrase.whole Layer.primary = p at h'
    cases h' with
    | comparison => simp at heq
    | group r r' hn' =>
      simp only [List.cons_append, List.append_assoc, List.nil_append, List.cons.injEq] at heq
      obtain ⟨rfl, hrest⟩ := ih hn' heq.2 (goesOn_closeParen _ _ _) (goesOn_closeParen _ _ _)
      simp only [List.cons.injEq] at hrest
      exact ⟨rfl, hrest.2⟩
    | chain op' => cases op' <;> cases hp
    | stop | step => cases hp
  | chain op hl hn ihl ihn =>
    obtain ⟨vs, ws, left, rfl, hl', hn'⟩ := whole_layer_iff.mp h'
    simp only [List.append_assoc] at heq
    obtain ⟨rfl, hrest⟩ := ihl hl' heq (hn.endsBefore_link (not_goesOn_operandLayer ha))
      (hn'.endsBefore_link (not_goesOn_operandLayer hb))
    exact ihn hn' hrest ha hb
  | stop op left =>
    cases h' with
    | stop => exact ⟨rfl, by simpa using heq⟩
    | step =>
      simp only [List.nil_append] at heq
      subst heq
      exact absurd op.least_layer_le ha
  | step op s hr hn ihr ihn =>
    cases h' with
    | stop =>
      simp only [List.nil_append] at heq
      subst heq
      exact absurd op.least_layer_le hb
    | step _ s' hr' hn' =>
      simp only [List.cons_append, List.append_assoc, List.cons.injEq] at heq
      obtain ⟨rfl, hrest⟩ := ihr hr' heq.2 (hn.endsBefore_link (not_goesOn_operandLayer ha))
        (hn'.endsBefore_link (not_goesOn_operandLayer hb))
      exact ihn hn' hrest ha hb

theorem unique {layer : Layer} {ts : List Token} {n m : Condition}
    (h : Derives (.whole layer) ts n) (h' : Derives (.whole layer) ts m) : n = m :=
  (h.unique_prefix h' rfl (goesOn_nil _) (goesOn_nil _)).1

end Derives
end RecordFilter
