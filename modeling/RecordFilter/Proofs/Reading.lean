import RecordFilter.Outcome
import RecordFilter.Proofs.Grammar

/-!
The reader of conditions decides the grammar. It reads exactly the tokens that are derived, up to
the height limit, and a derived condition above the limit is refused for its height: the limit on
open groups never refuses a condition that the limit on heights admits.
-/
namespace RecordFilter
namespace Reader

/-! Lists and operands are read by the shape of their tokens alone. -/

/-- Derived literals are read up to the bracket behind them. -/
theorem literals_of_derives {ts : List Token} {ls : List Literal} (b : Span) (rest : List Token)
    (h : DerivesLiterals ts ls) :
    literals (ts ++ ⟨.closeBracket, b⟩ :: rest) = .ok (ls, b, rest) := by
  induction h with
  | last l => rfl
  | more l s h ih => simp [Literal.token, Literal.tokenKind, literals, ih, Except.map]

/-- Whatever a list is read from are derived literals and a bracket. -/
theorem derives_of_literals {ts rest : List Token} {ls : List Literal} {b : Span}
    (h : literals ts = .ok (ls, b, rest)) :
    ∃ us, ts = us ++ ⟨.closeBracket, b⟩ :: rest ∧ DerivesLiterals us ls := by
  induction ts using literals.induct generalizing ls with
  | case1 kind text span close rest' =>
    simp only [literals, Except.ok.injEq, Prod.mk.injEq] at h
    obtain ⟨rfl, rfl, rfl⟩ := h
    exact ⟨[_], rfl, .last ⟨kind, text, span⟩⟩
  | case2 kind text span s rest' ih =>
    simp only [literals] at h
    cases hr : literals rest' with
    | error e => simp [hr, Except.map] at h
    | ok r =>
      obtain ⟨ms, b', rest''⟩ := r
      simp only [hr, Except.map, Except.ok.injEq, Prod.mk.injEq] at h
      obtain ⟨rfl, rfl, rfl⟩ := h
      obtain ⟨us, rfl, hus⟩ := ih hr
      exact ⟨_, rfl, .more ⟨kind, text, span⟩ s hus⟩
  | case3 => simp [literals] at h
  | case4 => simp [literals] at h

theorem operand_of_derives {op : CompareOp} {ts rest : List Token} {x : Operand} {s : Span}
    (h : DerivesOperand op ts x s) : operand op (ts ++ rest) = .ok (x, s, rest) := by
  cases h with
  | single l hop =>
    rw [← CompareOp.takesList_iff] at hop
    simp [operand, hop, Literal.token, Literal.tokenKind]
  | noLiterals a b hop =>
    rw [← CompareOp.takesList_iff] at hop
    simp [operand, hop]
  | literals a b hop hl =>
    rw [← CompareOp.takesList_iff] at hop
    have hr := literals_of_derives b rest hl
    cases hl with
    | last l => simp [operand, hop, Literal.token, Literal.tokenKind, literals, Except.map]
    | more l s hl =>
      simp only [Literal.token, Literal.tokenKind, List.cons_append, List.append_assoc,
        List.nil_append] at hr ⊢
      simp [operand, hop, hr, Except.map]

theorem derives_of_operand {op : CompareOp} {ts rest : List Token} {x : Operand} {s : Span}
    (h : operand op ts = .ok (x, s, rest)) : ∃ us, ts = us ++ rest ∧ DerivesOperand op us x s := by
  unfold operand at h
  split at h
  · next hop =>
    split at h
    · next a b rest' =>
      simp only [Except.ok.injEq, Prod.mk.injEq] at h
      obtain ⟨rfl, rfl, rfl⟩ := h
      exact ⟨_, rfl, .noLiterals a b (CompareOp.takesList_iff.mp hop)⟩
    · next a rest' _ =>
      cases hr : literals rest' with
      | error e => simp [hr, Except.map] at h
      | ok r =>
        obtain ⟨ls, b, rest''⟩ := r
        simp only [hr, Except.map, Except.ok.injEq, Prod.mk.injEq] at h
        obtain ⟨rfl, rfl, rfl⟩ := h
        obtain ⟨us, rfl, hus⟩ := derives_of_literals hr
        exact ⟨⟨.openBracket, a⟩ :: (us ++ [⟨.closeBracket, b⟩]), by simp,
          .literals a b (CompareOp.takesList_iff.mp hop) hus⟩
    · cases h
  · next hop =>
    split at h
    · cases h
    · next kind text span rest' =>
      simp only [Except.ok.injEq, Prod.mk.injEq] at h
      obtain ⟨rfl, rfl, rfl⟩ := h
      exact ⟨[_], rfl, .single ⟨kind, text, span⟩ (mt CompareOp.takesList_iff.mpr hop)⟩
    · cases h

/-! One link of a chain at a time. -/

theorem climb_stop {nested : Nested} {g least more : Nat} {left : Sized} {ts : List Token}
    (h : ¬ GoesOn least ts) : climb nested g least more left ts = .done left ts := by
  cases more with
  | zero => rfl
  | succ more =>
    unfold climb
    split
    · next op s rest => exact if_pos (Nat.lt_of_not_le h)
    · rfl

theorem climb_failed {nested : Nested} {g least more : Nat} {left : Sized} {op : LogicalOp}
    {s : Span} {ts rest : List Token} {e : GrammarError} {g' : Nat} (hop : least ≤ op.strength)
    (h : nested g (op.strength + 1) ts = .failed e rest g') :
    climb nested g least (more + 1) left (⟨.logical op, s⟩ :: ts) = .failed e rest g' := by
  simp [climb, h, Nat.not_lt.mpr hop]

/-- A connective and its right operand are joined to what stands on the left, unless the chain gets
too high. -/
theorem climb_joined {nested : Nested} {g least more height height' : Nat} {left right : Condition}
    {op : LogicalOp} {s : Span} {ts rest : List Token} (hop : least ≤ op.strength)
    (h : nested g (op.strength + 1) ts = .done (right, height') rest) :
    climb nested g least (more + 1) (left, height) (⟨.logical op, s⟩ :: ts) =
      if maxHeight < max height height' + 1 then .failed (tooHigh ⟨.logical op, s⟩) rest g
      else climb nested g least more (.join op left right, max height height' + 1) rest := by
  simp [climb, h, Nat.not_lt.mpr hop]

/-! One group at a time. -/

def closing (finish a : Span) (g : Nat) : Outcome Sized → Outcome Sized
  | .done (inner, height) (⟨.closeParen, _⟩ :: rest) =>
    if maxHeight ≤ height then .failed (tooHigh ⟨.openParen, a⟩) rest g
    else .done (.group inner, height + 1) rest
  | .done _ rest => .failed (errorAt finish .closingParen rest) rest g
  | other => other

/-- One group more is open while its condition is read. -/
theorem primary_openParen (nested : Nested) (finish a : Span) (g : Nat) (ts : List Token) :
    primary nested finish g (⟨.openParen, a⟩ :: ts) =
      if maxHeight ≤ g then .failed (tooHigh ⟨.openParen, a⟩) ts g
      else closing finish a g (nested (g + 1) 0 ts) := rfl

theorem closing_closed (finish a b : Span) (g height : Nat) (n : Condition) (rest : List Token) :
    closing finish a g (.done (n, height) (⟨.closeParen, b⟩ :: rest)) =
      if maxHeight ≤ height then .failed (tooHigh ⟨.openParen, a⟩) rest g
      else .done (.group n, height + 1) rest := rfl

/-- A group whose condition is not followed by a closing parenthesis is refused there. -/
theorem closing_unclosed (finish a : Span) (g : Nat) (v : Sized) {rest : List Token}
    (h : ∀ b more, rest ≠ ⟨.closeParen, b⟩ :: more) :
    closing finish a g (.done v rest) = .failed (errorAt finish .closingParen rest) rest g := by
  unfold closing
  split
  · next heq =>
    cases heq
    exact absurd rfl (h _ _)
  · next heq =>
    cases heq
    rfl
  · next hdone => exact absurd rfl (hdone _ _)

end Reader

theorem Condition.height_join (op : LogicalOp) (l r : Condition) :
    (Condition.join op l r).height = max l.height r.height + 1 := by
  cases op <;> rfl

theorem Condition.height_pos (n : Condition) : 0 < n.height := by
  cases n <;> simp [height]

/-- A chain is at least as high as its left operand. -/
theorem Derives.height_onward {op : LogicalOp} {left n : Condition} {ts : List Token}
    (h : Derives (.onward op left) ts n) : left.height ≤ n.height := by
  generalize hp : Phrase.onward op left = p at h
  induction h generalizing left with
  | comparison | group | chain => cases hp
  | stop => cases hp; exact Nat.le_refl _
  | step op' s hr hn ihr ihn =>
    cases hp
    have := ihn rfl
    rw [Condition.height_join] at this
    omega

namespace Reader

/-- The nested calls that are enough for a condition of a layer inside some open groups: one for
each layer that is not tighter, and three for each group that may still be opened. -/
def callsFor (openGroups : Nat) (layer : Layer) : Nat :=
  3 * (maxHeight - openGroups) + match layer with
    | .expression => 3
    | .conjunction => 2
    | .primary => 1

theorem callsFor_pos (g : Nat) (layer : Layer) : 0 < callsFor g layer := by
  cases layer <;> simp [callsFor]

/-- Each operand of a chain is left one call less than the chain. -/
theorem callsFor_operandLayer (g : Nat) (op : LogicalOp) :
    callsFor g op.operandLayer + 1 = callsFor g op.layer := by
  cases op <;> rfl

theorem callsFor_mono (g : Nat) {layer layer' : Layer} (h : layer.least ≤ layer'.least) :
    callsFor g layer' ≤ callsFor g layer := by
  cases layer <;> cases layer' <;> simp_all [callsFor, Layer.least]

/-- The groups that may still be opened pay for the calls inside of one. -/
theorem callsFor_group {g : Nat} (h : g < maxHeight) (layer : Layer) :
    callsFor (g + 1) .expression < callsFor g layer := by
  cases layer <;> simp only [callsFor] <;> omega

/-- How the reading of derived tokens ends: with the whole of them read, so that the climb goes on
after them, or with one of them refused because the condition gets too high. -/
def Arrives (nested : Nested) (g least : Nat) (ts : List Token) (n : Condition) (rest : List Token)
    (o : Outcome Sized) : Prop :=
  (n.height ≤ maxHeight ∧ ∃ more, rest.length ≤ more ∧
    o = climb nested g least more (n, n.height) rest) ∨
  (maxHeight < g + n.height ∧ ∃ token ∈ ts, ∃ left g', o = .failed (tooHigh token) left g')

/-- Where nothing is left to climb, the reader is done. -/
theorem Arrives.done {nested : Nested} {g least : Nat} {ts rest : List Token} {n : Condition}
    {o : Outcome Sized} (h : Arrives nested g least ts n rest o) (hrest : ¬ GoesOn least rest) :
    (n.height ≤ maxHeight ∧ o = .done (n, n.height) rest) ∨
    (maxHeight < g + n.height ∧ ∃ token ∈ ts, ∃ left g', o = .failed (tooHigh token) left g') := by
  obtain ⟨hn, more, _, rfl⟩ | h := h
  · exact .inl ⟨hn, climb_stop hrest⟩
  · exact .inr h

/-- How a phrase is read, by the reader of any layer that takes it in and any rest that does not
belong to its last link. -/
def ReadAs (finish : Span) (ts : List Token) (n : Condition) : Phrase → Prop
  | .whole inner => ∀ (layer : Layer) (calls g : Nat) (rest : List Token),
      layer.least ≤ inner.least →
      (∀ op : LogicalOp, inner = op.layer → ¬ GoesOn op.operandLayer.least rest) →
      g ≤ maxHeight → callsFor g layer ≤ calls + 1 →
      Arrives (condition finish calls) g layer.least ts n rest
        (condition finish (calls + 1) g layer.least (ts ++ rest))
  | .onward op left => ∀ (layer : Layer) (calls g : Nat) (rest : List Token) (more : Nat),
      layer.least ≤ op.layer.least → ¬ GoesOn op.operandLayer.least rest →
      g ≤ maxHeight → callsFor g layer ≤ calls + 1 →
      left.height ≤ maxHeight → (ts ++ rest).length ≤ more →
      Arrives (condition finish calls) g layer.least ts n rest
        (climb (condition finish calls) g layer.least more (left, left.height) (ts ++ rest))

theorem condition_primary_done {finish : Span} {calls g least : Nat} {ts rest : List Token}
    {left : Sized} (h : primary (condition finish calls) finish g ts = .done left rest) :
    condition finish (calls + 1) g least ts =
      climb (condition finish calls) g least rest.length left rest := by
  simp only [condition, h]

theorem condition_primary_failed {finish : Span} {calls g least : Nat} {ts rest : List Token}
    {e : GrammarError} {g' : Nat}
    (h : primary (condition finish calls) finish g ts = .failed e rest g') :
    condition finish (calls + 1) g least ts = .failed e rest g' := by
  simp only [condition, h]

/-- A comparison is a primary that no group or connective is needed for. -/
theorem readAs_comparison {finish : Span} {path : String} {a b : Span} {op : CompareOp}
    {ignoreCase : Bool} {ts : List Token} {x : Operand} {s : Span} (h : DerivesOperand op ts x s) :
    ReadAs finish (⟨.field path, a⟩ :: ⟨.comparison op ignoreCase, b⟩ :: ts)
      (.comparison ⟨path, a, op, ignoreCase, x, a.union s⟩) (.whole .primary) := by
  intro layer calls g rest _ _ _ _
  refine .inl ⟨by simp [Condition.height, maxHeight], rest.length, Nat.le_refl _, ?_⟩
  apply condition_primary_done
  simp [primary, comparison, operand_of_derives h, Except.map, Condition.height]

/-- A group is refused at its first parenthesis if one too many is open. It is too high then, since
there is something in it. -/
theorem readAs_group {finish : Span} {a b : Span} {ts : List Token} {n : Condition}
    (ih : ReadAs finish ts n (.whole .expression)) :
    ReadAs finish (⟨.openParen, a⟩ :: (ts ++ [⟨.closeParen, b⟩])) (.group n)
      (.whole .primary) := by
  intro layer calls g rest _ _ hg hcalls
  simp only [List.cons_append, List.append_assoc, List.nil_append]
  by_cases hopen : maxHeight ≤ g
  · have := n.height_pos
    refine .inr ⟨by simp only [Condition.height]; omega, ⟨.openParen, a⟩, by simp,
      ts ++ ⟨.closeParen, b⟩ :: rest, g, ?_⟩
    apply condition_primary_failed
    rw [primary_openParen, if_pos hopen]
  have hless := callsFor_group (Nat.lt_of_not_le hopen) layer
  have hpos := callsFor_pos (g + 1) .expression
  obtain ⟨calls, rfl⟩ : ∃ k, calls = k + 1 := ⟨calls - 1, by omega⟩
  have hinner := (ih .expression calls (g + 1) (⟨.closeParen, b⟩ :: rest) (Nat.le_refl _)
    (fun _ _ => goesOn_closeParen _ _ _) (by omega) (by omega)).done (goesOn_closeParen _ _ _)
  obtain ⟨hn, hdone⟩ | ⟨hn, token, htoken, left, g', hfailed⟩ := hinner
  · have hdone : condition finish (calls + 1) (g + 1) 0 (ts ++ ⟨.closeParen, b⟩ :: rest) =
        .done (n, n.height) (⟨.closeParen, b⟩ :: rest) := hdone
    by_cases hheight : maxHeight ≤ n.height
    · refine .inr ⟨by simp only [Condition.height]; omega, ⟨.openParen, a⟩, by simp, rest, g, ?_⟩
      apply condition_primary_failed
      rw [primary_openParen, if_neg hopen, hdone, closing_closed, if_pos hheight]
    · refine .inl ⟨by simp only [Condition.height]; omega, rest.length, Nat.le_refl _, ?_⟩
      apply condition_primary_done
      rw [primary_openParen, if_neg hopen, hdone, closing_closed, if_neg hheight, Condition.height]
  · have hfailed : condition finish (calls + 1) (g + 1) 0 (ts ++ ⟨.closeParen, b⟩ :: rest) =
        .failed (tooHigh token) left g' := hfailed
    refine .inr ⟨by simp only [Condition.height]; omega, token, by simp [htoken], left, g', ?_⟩
    apply condition_primary_failed
    rw [primary_openParen, if_neg hopen, hfailed]
    rfl

/-- A chain is read as its first operand and the climb from there. -/
theorem readAs_chain {finish : Span} {op : LogicalOp} {ts us : List Token} {left n : Condition}
    (hn : Derives (.onward op left) us n) (ihl : ReadAs finish ts left (.whole op.operandLayer))
    (ihn : ReadAs finish us n (.onward op left)) :
    ReadAs finish (ts ++ us) n (.whole op.layer) := by
  intro layer calls g rest hlayer hrest hg hcalls
  have hlink := hn.endsBefore_link (hrest op rfl)
  have hinner : ∀ op' : LogicalOp, op.operandLayer = op'.layer →
      ¬ GoesOn op'.operandLayer.least (us ++ rest) := by
    intro op' hop'
    cases op <;> cases op' <;> cases hop'
    exact not_goesOn_primary _
  have hle : layer.least ≤ op.operandLayer.least := by
    have := op.least_operandLayer
    have := op.least_layer_le
    omega
  rw [List.append_assoc]
  obtain ⟨hleft, more, hmore, he⟩ | ⟨hleft, token, htoken, hfailed⟩ :=
    ihl layer calls g (us ++ rest) hle hinner hg hcalls
  · rw [he]
    obtain ⟨hn', hdone⟩ | ⟨hn', token, htoken, hfailed⟩ :=
      ihn layer calls g rest more hlayer (hrest op rfl) hg hcalls hleft hmore
    · exact .inl ⟨hn', hdone⟩
    · exact .inr ⟨hn', token, by simp [htoken], hfailed⟩
  · have := hn.height_onward
    exact .inr ⟨by omega, token, by simp [htoken], hfailed⟩

/-- One link of a climb takes in a connective and one operand, and the climb goes on from the joined
condition. -/
theorem readAs_step {finish : Span} {op : LogicalOp} {s : Span} {ts us : List Token}
    {left right n : Condition} (hn : Derives (.onward op (.join op left right)) us n)
    (ihr : ReadAs finish ts right (.whole op.operandLayer))
    (ihn : ReadAs finish us n (.onward op (.join op left right))) :
    ReadAs finish (⟨.logical op, s⟩ :: (ts ++ us)) n (.onward op left) := by
  intro layer calls g rest more hlayer hrest hg hcalls hleft hmore
  have hlink := hn.endsBefore_link hrest
  have hop : layer.least ≤ op.strength := Nat.le_trans hlayer op.least_layer_le
  have hheight := hn.height_onward
  rw [Condition.height_join] at hheight
  have hmono := callsFor_mono g hlayer
  have hless := callsFor_operandLayer g op
  have hpos := callsFor_pos g op.operandLayer
  obtain ⟨calls, rfl⟩ : ∃ k, calls = k + 1 := ⟨calls - 1, by omega⟩
  simp only [List.cons_append, List.length_cons, List.append_assoc] at hmore ⊢
  obtain ⟨more, rfl⟩ : ∃ k, more = k + 1 := ⟨more - 1, by omega⟩
  have hinner : ∀ op' : LogicalOp, op.operandLayer = op'.layer →
      ¬ GoesOn op'.operandLayer.least (us ++ rest) := by
    intro op' hop'
    cases op <;> cases op' <;> cases hop'
    exact not_goesOn_primary _
  have hright := (ihr op.operandLayer calls g (us ++ rest) (Nat.le_refl _) hinner hg
    (by omega)).done hlink
  rw [op.least_operandLayer] at hright
  obtain ⟨_, hdone⟩ | ⟨hr, token, htoken, rest', g', hfailed⟩ := hright
  · rw [climb_joined hop hdone]
    split
    · next htoo =>
      exact .inr ⟨by omega, ⟨.logical op, s⟩, by simp, us ++ rest, g, rfl⟩
    · next hfits =>
      rw [← Condition.height_join op]
      have hfits : (Condition.join op left right).height ≤ maxHeight := by
        rw [Condition.height_join]
        omega
      obtain h | ⟨hn', token, htoken, hfailed⟩ :=
        ihn layer (calls + 1) g rest more hlayer hrest hg hcalls hfits (by
          simp only [List.length_append] at hmore ⊢
          omega)
      · exact .inl h
      · exact .inr ⟨hn', token, by simp [htoken], hfailed⟩
  · exact .inr ⟨by omega, token, by simp [htoken], rest', g', climb_failed hop hfailed⟩

/-- Every phrase is read as it is derived, as far as the height limit lets it. -/
theorem readAs_of_derives (finish : Span) {p : Phrase} {ts : List Token} {n : Condition}
    (h : Derives p ts n) : ReadAs finish ts n p := by
  induction h with
  | comparison path a b op ic hop => exact readAs_comparison hop
  | group a b hn ih => exact readAs_group ih
  | chain op hl hn ihl ihn => exact readAs_chain hn ihl ihn
  | stop op left =>
    intro layer calls g rest more _ _ _ _ hleft hmore
    exact .inl ⟨hleft, more, hmore, rfl⟩
  | step op s hr hn ihr ihn => exact readAs_step hn ihr ihn

/-- The tokens of an expression, with nothing after them that belongs to it, are read as it. -/
theorem condition_of_derives (finish : Span) {ts rest : List Token} {n : Condition}
    (h : Derives (.whole .expression) ts n) (hrest : ¬ GoesOn Layer.expression.least rest) :
    (n.height ≤ maxHeight ∧
      condition finish callLimit 0 0 (ts ++ rest) = .done (n, n.height) rest) ∨
    (maxHeight < n.height ∧ ∃ token ∈ ts, ∃ left g',
      condition finish callLimit 0 0 (ts ++ rest) = .failed (tooHigh token) left g') := by
  have hinner : ∀ op : LogicalOp, Layer.expression = op.layer →
      ¬ GoesOn op.operandLayer.least rest := by
    intro op hop
    cases op with
    | and => cases hop
    | or => exact not_goesOn_operandLayer hrest
  have hlimit : callLimit = 770 + 1 := rfl
  have hread := (readAs_of_derives finish h .expression 770 0 rest (Nat.le_refl _) hinner
    (Nat.zero_le _) (by decide)).done hrest
  simpa [hlimit, Layer.least] using hread

/-! No more nested calls are needed than were granted. -/

/-- A primary has enough calls if the inside of a group has. -/
theorem primary_in_calls {nested : Nested} {finish : Span} {g : Nat}
    (hnested : g < maxHeight → ∀ ts, nested (g + 1) 0 ts ≠ .outOfCalls) (ts : List Token) :
    primary nested finish g ts ≠ .outOfCalls := by
  unfold primary
  split
  · next a ts =>
    by_cases hopen : maxHeight ≤ g
    · simp [hopen]
    · have hinner := hnested (Nat.lt_of_not_le hopen) ts
      simp only [if_neg hopen]
      split
      · split <;> nofun
      · nofun
      · exact hinner
  · split <;> nofun
  · nofun

theorem climb_in_calls {nested : Nested} {g : Nat} {layer : Layer}
    (hnested : ∀ op : LogicalOp, layer.least ≤ op.strength →
      ∀ ts, nested g op.operandLayer.least ts ≠ .outOfCalls)
    (more : Nat) (left : Sized) (ts : List Token) :
    climb nested g layer.least more left ts ≠ .outOfCalls := by
  induction more generalizing left ts with
  | zero => nofun
  | succ more ih =>
    obtain ⟨left, height⟩ := left
    by_cases hgo : GoesOn layer.least ts
    · obtain ⟨op, s, ts, rfl, hop⟩ := goesOn_cases _ _ hgo
      have hright := hnested op hop ts
      rw [op.least_operandLayer] at hright
      cases hr : nested g (op.strength + 1) ts with
      | outOfCalls => exact absurd hr hright
      | failed e rest g' =>
        rw [climb_failed hop hr]
        nofun
      | done right rest =>
        rw [climb_joined hop hr]
        split
        · nofun
        · exact ih _ _
    · rw [climb_stop hgo]
      nofun

theorem condition_in_calls (finish : Span) {calls g : Nat} {layer : Layer}
    (hcalls : callsFor g layer ≤ calls) (ts : List Token) :
    condition finish calls g layer.least ts ≠ .outOfCalls := by
  induction calls generalizing g layer ts with
  | zero => exact absurd hcalls (Nat.not_le.mpr (callsFor_pos g layer))
  | succ calls ih =>
    have hgroup : g < maxHeight → ∀ ts, condition finish calls (g + 1) 0 ts ≠ .outOfCalls := by
      intro hopen
      have hless := callsFor_group hopen layer
      exact @ih (g + 1) .expression (by omega)
    have hprimary : primary (condition finish calls) finish g ts ≠ .outOfCalls :=
      primary_in_calls hgroup ts
    cases hp : primary (condition finish calls) finish g ts with
    | outOfCalls => exact absurd hp hprimary
    | failed e rest g' =>
      rw [condition_primary_failed hp]
      nofun
    | done left rest =>
      rw [condition_primary_done hp]
      refine climb_in_calls (fun op hop => ih ?_) _ _ _
      have hless := callsFor_operandLayer g op
      have hmono := callsFor_mono g (LogicalOp.least_le_layer hop)
      omega

/-- The nested calls that are granted are enough for every list of tokens. -/
theorem callLimit_suffices (finish : Span) (g : Nat) (ts : List Token) :
    condition finish callLimit g 0 ts ≠ .outOfCalls := by
  have hcalls : callsFor g .expression ≤ callLimit := by
    simp only [callsFor, callLimit]
    omega
  exact condition_in_calls finish hcalls ts

/-! The other way: what is read has been derived. -/

/-- A comparison is read from derived tokens, and from the same ones whatever comes after them. -/
theorem derives_of_comparison {path : String} {a : Span} {ts rest : List Token} {c : Comparison}
    (h : comparison path a ts = .ok (c, rest)) :
    ∃ us, ts = us ++ rest ∧ Derives (.whole .primary) (⟨.field path, a⟩ :: us) (.comparison c) ∧
      ∀ rest', comparison path a (us ++ rest') = .ok (c, rest') := by
  unfold comparison at h
  split at h
  · next op ic b rest' =>
    obtain ⟨⟨x, s, rest''⟩, hx, heq⟩ := map_eq_ok_iff.mp h
    cases heq
    obtain ⟨us, rfl, hus⟩ := derives_of_operand hx
    exact ⟨⟨.comparison op ic, b⟩ :: us, rfl, .comparison path a b op ic hus,
      fun rest' => by simp only [comparison, List.cons_append, operand_of_derives hus, Except.map]⟩
  · cases h

/-- A reader takes in derived tokens only, keeps the height, and leaves no connective that it
should have taken in. -/
def Sound (nested : Nested) : Prop :=
  ∀ (layer : Layer) (g : Nat) (ts rest : List Token) (n : Condition) (height : Nat),
    nested g layer.least ts = .done (n, height) rest →
    ∃ us, ts = us ++ rest ∧ Derives (.whole layer) us n ∧ height = n.height ∧
      n.height ≤ maxHeight ∧ ¬ GoesOn layer.least rest

theorem derives_of_primary {nested : Nested} {finish : Span} (hn : Sound nested) {g : Nat}
    {ts rest : List Token} {n : Condition} {height : Nat}
    (h : primary nested finish g ts = .done (n, height) rest) :
    ∃ us, ts = us ++ rest ∧ Derives (.whole .primary) us n ∧ height = n.height ∧
      n.height ≤ maxHeight := by
  unfold primary at h
  split at h
  · next a rest' =>
    simp only at h
    split at h
    · cases h
    split at h
    · next inner height' b rest'' hinner =>
      split at h
      · cases h
      · next hheight =>
        cases h
        obtain ⟨us, rfl, hus, rfl, _, _⟩ := hn .expression _ _ _ _ _ hinner
        refine ⟨⟨.openParen, a⟩ :: (us ++ [⟨.closeParen, b⟩]), by simp, .group a b hus, rfl, ?_⟩
        simp only [Condition.height]
        omega
    · cases h
    · next o hnot hnot' =>
      exact absurd h (hnot' _ _)
  · next path a rest' =>
    split at h
    · next c rest'' hc =>
      cases h
      obtain ⟨us, rfl, hus, _⟩ := derives_of_comparison hc
      exact ⟨_, rfl, hus, rfl, by simp [Condition.height, maxHeight]⟩
    · cases h
  · cases h

/-- After the right operand no connective comes that belongs to it; what the layer may take in next
is the same connective again or a looser one, so that the joined chain can be its left operand. -/
theorem derives_joined {layer : Layer} {op : LogicalOp} {us vs rest : List Token}
    {left right : Condition} (s : Span) (hop : layer.least ≤ op.strength)
    (hleft : Derives (.whole op.layer) us left) (hright : Derives (.whole op.operandLayer) vs right)
    (hstop : ¬ GoesOn (op.strength + 1) rest) :
    Derives (.whole layer) (us ++ ⟨.logical op, s⟩ :: vs) (.join op left right) ∧
    ∀ op' s' ts', rest = ⟨.logical op', s'⟩ :: ts' → layer.least ≤ op'.strength →
      Derives (.whole op'.layer) (us ++ ⟨.logical op, s⟩ :: vs) (.join op left right) := by
  have hjoin := hleft.join s hright
  refine ⟨hjoin.loosen (LogicalOp.least_le_layer hop), ?_⟩
  rintro op' s' ts' rfl _
  rw [goesOn_logical] at hstop
  apply hjoin.loosen
  cases op <;> cases op' <;> simp_all [Layer.least, LogicalOp.layer, LogicalOp.strength]

/-- The left operand is a chain of every connective that may come next, so that joining the two
gives such a chain again. -/
theorem derives_of_climb {nested : Nested} (hn : Sound nested) {layer : Layer} {g more : Nat}
    {us ts rest : List Token} {left n : Condition} {height : Nat} (hmore : ts.length ≤ more)
    (hleft : Derives (.whole layer) us left) (hheight : left.height ≤ maxHeight)
    (hnext : ∀ op s ts', ts = ⟨.logical op, s⟩ :: ts' → layer.least ≤ op.strength →
      Derives (.whole op.layer) us left)
    (h : climb nested g layer.least more (left, left.height) ts = .done (n, height) rest) :
    ∃ vs, ts = vs ++ rest ∧ Derives (.whole layer) (us ++ vs) n ∧ height = n.height ∧
      n.height ≤ maxHeight ∧ ¬ GoesOn layer.least rest := by
  induction more generalizing us ts left with
  | zero =>
    obtain rfl : ts = [] := List.eq_nil_of_length_eq_zero (by omega)
    cases h
    exact ⟨[], rfl, by simpa using hleft, rfl, hheight, goesOn_nil _⟩
  | succ more ih =>
    by_cases hgo : GoesOn layer.least ts
    · obtain ⟨op, s, ts', rfl, hop⟩ := goesOn_cases _ _ hgo
      cases hr : nested g (op.strength + 1) ts' with
      | failed e left' g' => rw [climb_failed hop hr] at h; cases h
      | outOfCalls => simp [climb, hr, Nat.not_lt.mpr hop] at h
      | done right rest' =>
        obtain ⟨right, height'⟩ := right
        have hsound := hn op.operandLayer g ts' rest' right height'
        rw [op.least_operandLayer] at hsound
        obtain ⟨vs, rfl, hvs, rfl, _, hstop⟩ := hsound hr
        rw [climb_joined hop hr] at h
        split at h
        · cases h
        · next hfits =>
          rw [← Condition.height_join op] at h hfits
          obtain ⟨hjoin, hnext'⟩ := derives_joined s hop (hnext op s _ rfl hop) hvs hstop
          obtain ⟨ws, rfl, hws, hrest⟩ :=
            ih (by simp only [List.length_cons, List.length_append] at hmore; omega)
              hjoin (Nat.le_of_not_lt hfits) hnext' h
          exact ⟨⟨.logical op, s⟩ :: (vs ++ ws), by simp, by simpa using hws, hrest⟩
    · rw [climb_stop hgo] at h
      cases h
      exact ⟨[], rfl, by simpa using hleft, rfl, hheight, hgo⟩

/-- By induction on the calls, whatever is read is derived. -/
theorem sound_condition (finish : Span) (calls : Nat) : Sound (condition finish calls) := by
  induction calls with
  | zero =>
    intro layer g ts rest n height h
    cases h
  | succ calls ih =>
    intro layer g ts rest n height h
    unfold condition at h
    split at h
    · next left rest' hp =>
      obtain ⟨left, height'⟩ := left
      obtain ⟨us, rfl, hus, rfl, hheight⟩ := derives_of_primary ih hp
      obtain ⟨vs, rfl, hvs, hrest⟩ := derives_of_climb ih (Nat.le_refl _)
        (hus.loosen layer.least_le_primary) hheight
        (fun op _ _ _ _ => hus.loosen op.layer.least_le_primary) h
      exact ⟨us ++ vs, by simp, hvs, hrest⟩
    · next o hnot => exact absurd h (hnot _ _)

theorem not_goesOn_of_atEnd {ts : List Token} (h : atEnd ts = true) (least : Nat) :
    ¬ GoesOn least ts := by
  intro hg
  obtain ⟨op, s, rest, rfl, _⟩ := goesOn_cases _ _ hg
  simp [atEnd] at h

theorem not_atEnd_of_derives {ts : List Token} {n : Condition}
    (h : Derives (.whole .expression) ts n) (rest : List Token) : atEnd (ts ++ rest) = false := by
  have hne := n.kinds_ne_nil
  have hend := n.endOfInput_not_mem_kinds
  rw [← h.kinds_eq] at hne hend
  cases ts with
  | nil => simp at hne
  | cons t ts =>
    simp only [List.map_cons, List.mem_cons, not_or] at hend
    simpa [atEnd] using Ne.symm hend.1

/-! How one reading ends, by the way its condition is read. -/

section

variable {r : Reader} {rest : List Token}

theorem read_atEnd (h : atEnd r.pending = true) :
    r.read = (.error (errorAt r.finish .comparison r.pending), r) := if_pos h

/-- A failed condition leaves the reader at the offending token, with the groups counted as they
were there. -/
theorem read_failed {e : GrammarError} {g : Nat} (hstart : ¬ atEnd r.pending = true)
    (h : condition r.finish callLimit r.openGroups 0 r.pending = .failed e rest g) :
    r.read = (.error e, { r with pending := rest, openGroups := g }) := by
  simp only [read, if_neg hstart, h]

theorem read_done {v : Sized} (hstart : ¬ atEnd r.pending = true)
    (h : condition r.finish callLimit r.openGroups 0 r.pending = .done v rest) :
    r.read = (if atEnd rest then .ok v.1 else .error (errorAt r.finish .connectiveOrEnd rest),
      { r with pending := rest }) := by
  simp only [read, if_neg hstart, h]
  split <;> rfl

/-- A reading that succeeds has read a condition up to the end. -/
theorem condition_of_read {n : Condition} (h : r.read.1 = .ok n) :
    ∃ height rest, condition r.finish callLimit r.openGroups 0 r.pending =
      .done (n, height) rest ∧ atEnd rest = true := by
  by_cases hstart : atEnd r.pending = true
  · rw [read_atEnd hstart] at h
    cases h
  cases hc : condition r.finish callLimit r.openGroups 0 r.pending with
  | outOfCalls => exact absurd hc (callLimit_suffices r.finish r.openGroups r.pending)
  | failed e rest g =>
    rw [read_failed hstart hc] at h
    cases h
  | done v rest =>
    rw [read_done hstart hc] at h
    by_cases hrest : atEnd rest = true
    · rw [if_pos hrest] at h
      cases h
      exact ⟨v.2, rest, rfl, hrest⟩
    · rw [if_neg hrest] at h
      cases h

end

end Reader

namespace Condition

open Reader

/-- Derived tokens are read as their condition if it is low enough, and are refused at one of them
if not. -/
theorem ofTokens_of_derives {ts rest : List Token} {n : Condition}
    (h : Derives (.whole .expression) ts n) (hrest : atEnd rest = true) :
    (n.height ≤ maxHeight ∧ ofTokens (ts ++ rest) = .ok n) ∨
    (maxHeight < n.height ∧ ∃ token ∈ ts, ofTokens (ts ++ rest) = .error (tooHigh token)) := by
  have hstart := not_atEnd_of_derives h rest
  simp only [ofTokens, Reader.ofTokens, Reader.read, hstart, Bool.false_eq_true, if_false]
  obtain ⟨hn, hdone⟩ | ⟨hn, token, htoken, left, g, hfailed⟩ :=
    condition_of_derives ((((ts ++ rest).getLast?).map fun t => t.span.after).getD {}) h
      (not_goesOn_of_atEnd hrest _)
  · exact .inl ⟨hn, by simp only [hdone, hrest, if_true]⟩
  · exact .inr ⟨hn, token, htoken, by simp only [hfailed]⟩

/-- Tokens are read only if those before the end are derived. -/
theorem derives_of_ofTokens {ts : List Token} {n : Condition} (h : ofTokens ts = .ok n) :
    ∃ us rest, ts = us ++ rest ∧ atEnd rest = true ∧ Derives (.whole .expression) us n ∧
      n.height ≤ maxHeight := by
  obtain ⟨height, rest, hc, hrest⟩ := condition_of_read h
  obtain ⟨us, hts, hus, _, hn, _⟩ := sound_condition _ _ .expression _ _ _ _ _ hc
  exact ⟨us, rest, hts, hrest, hus, hn⟩

end Condition

def beforeEnd (ts : List Token) : List Token := ts.takeWhile fun t => t.kind != .endOfInput

theorem beforeEnd_append {ts rest : List Token} (h : .endOfInput ∉ ts.map Token.kind)
    (hrest : Reader.atEnd rest = true) : beforeEnd (ts ++ rest) = ts := by
  have hall : ∀ t ∈ ts, (t.kind != .endOfInput) = true := by
    intro t ht
    have hne : t.kind ≠ .endOfInput := fun he => h (he ▸ List.mem_map_of_mem ht)
    simpa using hne
  have hstop : rest.takeWhile (fun t => t.kind != .endOfInput) = [] := by
    cases rest with
    | nil => rfl
    | cons t rest =>
      have ht : t.kind = .endOfInput := by simpa [Reader.atEnd] using hrest
      simp [ht]
  rw [beforeEnd, List.takeWhile_append_of_pos hall, hstop, List.append_nil]

/-- Behind the tokens before the end there is the end or nothing. -/
theorem exists_beforeEnd_append (ts : List Token) :
    ∃ rest, ts = beforeEnd ts ++ rest ∧ Reader.atEnd rest = true := by
  refine ⟨ts.dropWhile fun t => t.kind != .endOfInput, by simp [beforeEnd], ?_⟩
  cases hd : ts.dropWhile fun t => t.kind != .endOfInput with
  | nil => rfl
  | cons t rest =>
    have := List.head?_dropWhile_not (fun t : Token => t.kind != .endOfInput) ts
    simpa [hd, Reader.atEnd] using this

/-- The reader decides the grammar: from the tokens before the end of the input it gives the
condition that they spell if its height is within the limit, and it refuses them for the height if
it is not. The condition is the only one, and its parts are all of the tokens in their order. -/
theorem Condition.ofTokens_decides_grammar (ts : List Token) :
    (∀ n, Condition.ofTokens ts = .ok n ↔
      Derives (.whole .expression) (beforeEnd ts) n ∧ n.height ≤ maxHeight) ∧
    (∀ n, Derives (.whole .expression) (beforeEnd ts) n → maxHeight < n.height →
      ∃ token ∈ beforeEnd ts, Condition.ofTokens ts = .error (Reader.tooHigh token)) ∧
    (∀ n, Derives (.whole .expression) (beforeEnd ts) n →
      (beforeEnd ts).map Token.kind = n.kinds ∧
      ∀ m, Derives (.whole .expression) (beforeEnd ts) m → m = n) := by
  obtain ⟨rest, hts, hrest⟩ := exists_beforeEnd_append ts
  refine ⟨fun n => ⟨?_, ?_⟩, ?_, fun n h => ⟨h.kinds_eq, fun m hm => hm.unique h⟩⟩
  · intro h
    obtain ⟨us, rest', rfl, hrest', hus, hn⟩ := Condition.derives_of_ofTokens h
    have hend := n.endOfInput_not_mem_kinds
    rw [← hus.kinds_eq] at hend
    rw [beforeEnd_append hend hrest']
    exact ⟨hus, hn⟩
  · rintro ⟨h, hn⟩
    obtain ⟨_, hok⟩ | ⟨hhigh, _⟩ := Condition.ofTokens_of_derives h hrest
    · rwa [← hts] at hok
    · omega
  · intro n h hhigh
    obtain ⟨hn, _⟩ | ⟨_, token, htoken, herr⟩ := Condition.ofTokens_of_derives h hrest
    · omega
    · exact ⟨token, htoken, by rwa [← hts] at herr⟩

def Condition.nested (n : Condition) (groups : Nat) : Condition := groups.repeat .group n

theorem Condition.height_nested (n : Condition) (groups : Nat) :
    (n.nested groups).height = n.height + groups := by
  induction groups with
  | zero => rfl
  | succ groups ih =>
    simp only [nested, Nat.repeat, height] at ih ⊢
    omega

theorem Derives.nested {ts : List Token} {n : Condition}
    (h : Derives (.whole .expression) ts n) (a b : Span) (groups : Nat) :
    Derives (.whole .expression) (List.replicate groups ⟨.openParen, a⟩ ++ ts ++
      List.replicate groups ⟨.closeParen, b⟩) (n.nested groups) := by
  induction groups with
  | zero => simpa [Condition.nested, Nat.repeat] using h
  | succ groups ih =>
    have hgroup : Derives (.whole .expression) _ _ := (Derives.group a b ih).loosen (by decide)
    rw [List.replicate_succ, List.replicate_succ']
    simpa [Condition.nested, Nat.repeat] using hgroup

/-- Groups around a comparison up to the height limit, and one more. -/
theorem Condition.ofTokens_at_height_limit :
    let equalsOne : List Token :=
      [⟨.field "A", {}⟩, ⟨.comparison .equals false, {}⟩, ⟨.literal .number "1", {}⟩]
    let inGroups (k : Nat) : List Token :=
      List.replicate k ⟨.openParen, {}⟩ ++ equalsOne ++ List.replicate k ⟨.closeParen, {}⟩
    (∃ n, n.height = 256 ∧ Condition.ofTokens (inGroups 255 ++ [⟨.endOfInput, {}⟩]) = .ok n) ∧
    ∃ token, Condition.ofTokens (inGroups 256 ++ [⟨.endOfInput, {}⟩]) =
      .error (Reader.tooHigh token) := by
  intro equalsOne inGroups
  let n : Condition := .comparison ⟨"A", {}, .equals, false, .single ⟨.number, "1", {}⟩, {}⟩
  have hn : Derives (.whole .expression) equalsOne n :=
    (Derives.comparison "A" {} {} .equals false
      (.single ⟨.number, "1", {}⟩ (by decide))).loosen (by decide)
  have hderives : ∀ k, Derives (.whole .expression)
      (beforeEnd (inGroups k ++ [⟨.endOfInput, {}⟩])) (n.nested k) := by
    intro k
    have hk := hn.nested {} {} k
    have hend := (n.nested k).endOfInput_not_mem_kinds
    rw [← hk.kinds_eq] at hend
    rwa [beforeEnd_append hend rfl]
  constructor
  · refine ⟨n.nested 255, by rw [n.height_nested]; rfl, ?_⟩
    exact ((ofTokens_decides_grammar _).1 _).mpr ⟨hderives 255, by rw [n.height_nested]; decide⟩
  · obtain ⟨token, _, h⟩ := (ofTokens_decides_grammar _).2.1 _ (hderives 256)
      (by rw [n.height_nested]; decide)
    exact ⟨token, h⟩

end RecordFilter
