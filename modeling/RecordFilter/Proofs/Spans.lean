import RecordFilter.Proofs.Grammar
import RecordFilter.Query

/-!
Conditions that differ in their spans only. They are written alike, they are as high as each other,
they are derived from tokens of the same kinds, and they compile to the same predicate: spans show
in the errors alone.
-/
namespace RecordFilter

def Literal.mapSpan (f : Span → Span) (l : Literal) : Literal := { l with span := f l.span }

def Operand.mapSpans (f : Span → Span) : Operand → Operand
  | .single l => .single (l.mapSpan f)
  | .list ls => .list (ls.map (Literal.mapSpan f))

def Comparison.mapSpans (f : Span → Span) (c : Comparison) : Comparison :=
  { c with
    fieldSpan := f c.fieldSpan
    operand := c.operand.mapSpans f
    span := f c.span }

def Condition.mapSpans (f : Span → Span) : Condition → Condition
  | .comparison c => .comparison (c.mapSpans f)
  | .and l r => .and (l.mapSpans f) (r.mapSpans f)
  | .or l r => .or (l.mapSpans f) (r.mapSpans f)
  | .group n => .group (n.mapSpans f)

def Condition.bare (n : Condition) : Condition := n.mapSpans fun _ => {}

theorem Literal.write_mapSpan (f : Span → Span) (l : Literal) : (l.mapSpan f).write = l.write := rfl

theorem Operand.write_mapSpans (f : Span → Span) (o : Operand) :
    (o.mapSpans f).write = o.write := by
  cases o with
  | single l => exact l.write_mapSpan f
  | list ls => simp [mapSpans, write, Function.comp_def, Literal.write_mapSpan]

/-- What is written does not depend on spans. -/
theorem Condition.write_mapSpans (f : Span → Span) (s : Spelling) (n : Condition) :
    (n.mapSpans f).write s = n.write s := by
  induction n with
  | comparison c => simp [mapSpans, write, Comparison.write, Comparison.mapSpans,
      Operand.write_mapSpans]
  | and l r hl hr => simp [mapSpans, write, hl, hr]
  | or l r hl hr => simp [mapSpans, write, hl, hr]
  | group n ih => simp [mapSpans, write, ih]

theorem Condition.height_mapSpans (f : Span → Span) (n : Condition) :
    (n.mapSpans f).height = n.height := by
  induction n with
  | comparison c => rfl
  | and l r hl hr => simp [mapSpans, height, hl, hr]
  | or l r hl hr => simp [mapSpans, height, hl, hr]
  | group n ih => simp [mapSpans, height, ih]

/-- A joined condition is moved by moving both sides. -/
theorem Condition.mapSpans_join (f : Span → Span) (op : LogicalOp) (l r : Condition) :
    (Condition.join op l r).mapSpans f = .join op (l.mapSpans f) (r.mapSpans f) := by
  cases op <;> rfl

/-- Conditions that are equal apart from spans are written alike. -/
theorem Condition.write_eq_of_bare_eq {n m : Condition} (h : m.bare = n.bare) (s : Spelling) :
    m.write s = n.write s := by
  rw [← m.write_mapSpans (fun _ => {}), ← n.write_mapSpans (fun _ => {})]
  exact congrArg (Condition.write s) h

theorem Condition.height_eq_of_bare_eq {n m : Condition} (h : m.bare = n.bare) :
    m.height = n.height := by
  rw [← m.height_mapSpans (fun _ => {}), ← n.height_mapSpans (fun _ => {})]
  exact congrArg Condition.height h

/-! Tokens of the same kinds spell the same condition, up to spans. -/

theorem DerivesLiterals.respell {ts us : List Token} {ls : List Literal}
    (h : DerivesLiterals ts ls) (hk : us.map Token.kind = ts.map Token.kind) :
    ∃ ms, DerivesLiterals us ms ∧
      ms.map (Literal.mapSpan fun _ => {}) = ls.map (Literal.mapSpan fun _ => {}) := by
  induction h generalizing us with
  | last l =>
    simp only [List.map_cons, List.map_nil, List.map_eq_cons_iff, List.map_eq_nil_iff] at hk
    obtain ⟨⟨kind, s⟩, us, rfl, rfl, rfl⟩ := hk
    exact ⟨_, .last ⟨l.kind, l.text, s⟩, rfl⟩
  | more l s h ih =>
    simp only [List.map_cons, List.map_eq_cons_iff] at hk
    obtain ⟨⟨kind, s⟩, us, rfl, rfl, ⟨kind', s'⟩, vs, rfl, rfl, hk⟩ := hk
    obtain ⟨ms, hms, he⟩ := ih hk
    exact ⟨_, .more ⟨l.kind, l.text, s⟩ s' hms, by simp [he, Literal.mapSpan]⟩

theorem DerivesOperand.respell {op : CompareOp} {ts us : List Token} {x : Operand} {s : Span}
    (h : DerivesOperand op ts x s) (hk : us.map Token.kind = ts.map Token.kind) :
    ∃ y s', DerivesOperand op us y s' ∧ y.mapSpans (fun _ => {}) = x.mapSpans fun _ => {} := by
  cases h with
  | single l hop =>
    simp only [List.map_cons, List.map_nil, List.map_eq_cons_iff, List.map_eq_nil_iff] at hk
    obtain ⟨⟨kind, s⟩, us, rfl, rfl, rfl⟩ := hk
    exact ⟨_, _, .single ⟨l.kind, l.text, s⟩ hop, rfl⟩
  | noLiterals a b hop =>
    simp only [List.map_cons, List.map_nil, List.map_eq_cons_iff, List.map_eq_nil_iff] at hk
    obtain ⟨⟨_, a'⟩, _, rfl, rfl, ⟨_, b'⟩, _, rfl, rfl, rfl⟩ := hk
    exact ⟨_, _, .noLiterals a' b' hop, rfl⟩
  | literals a b hop hl =>
    simp only [List.map_cons, List.map_append, List.map_nil, List.map_eq_cons_iff,
      List.map_eq_append_iff, List.map_eq_nil_iff] at hk
    obtain ⟨⟨_, a'⟩, _, rfl, rfl, us, _, rfl, hus, ⟨_, b'⟩, _, rfl, rfl, rfl⟩ := hk
    obtain ⟨ms, hms, he⟩ := hl.respell hus
    exact ⟨_, _, .literals a' b' hop hms, by simp [Operand.mapSpans, he]⟩

/-- Two phrases of one form, the left operands the same up to spans. -/
def Phrase.Like : Phrase → Phrase → Prop
  | .whole layer, q => q = .whole layer
  | .onward op left, q => ∃ left', q = .onward op left' ∧ left'.bare = left.bare

/-- By induction on how a phrase is derived, tokens of the same kinds spell the same condition,
apart from spans. -/
theorem Derives.respell {p q : Phrase} {ts us : List Token} {n : Condition} (h : Derives p ts n)
    (hk : us.map Token.kind = ts.map Token.kind) (hq : p.Like q) :
    ∃ m, Derives q us m ∧ m.bare = n.bare := by
  induction h generalizing us q with
  | comparison path a b op ic hop =>
    obtain rfl := hq
    simp only [List.map_cons, List.map_eq_cons_iff] at hk
    obtain ⟨⟨_, a'⟩, _, rfl, rfl, ⟨_, b'⟩, us, rfl, rfl, hk⟩ := hk
    obtain ⟨y, s', hy, he⟩ := hop.respell hk
    refine ⟨_, .comparison path a' b' op ic hy, ?_⟩
    simp [Condition.bare, Condition.mapSpans, Comparison.mapSpans, he]
  | group a b h ih =>
    obtain rfl := hq
    simp only [List.map_cons, List.map_append, List.map_nil, List.map_eq_cons_iff,
      List.map_eq_append_iff, List.map_eq_nil_iff] at hk
    obtain ⟨⟨_, a'⟩, _, rfl, rfl, us, _, rfl, hus, ⟨_, b'⟩, _, rfl, rfl, rfl⟩ := hk
    obtain ⟨m, hm, he⟩ := ih hus rfl
    exact ⟨_, .group a' b' hm, congrArg Condition.group he⟩
  | chain op hl hn ihl ihn =>
    obtain rfl := hq
    simp only [List.map_append, List.map_eq_append_iff] at hk
    obtain ⟨us, vs, rfl, hus, hvs⟩ := hk
    obtain ⟨left, hleft, he⟩ := ihl hus rfl
    obtain ⟨m, hm, hme⟩ := ihn hvs ⟨left, rfl, he⟩
    exact ⟨m, .chain op hleft hm, hme⟩
  | stop op left =>
    obtain ⟨left', rfl, he⟩ := hq
    obtain rfl : us = [] := by simpa using hk
    exact ⟨left', .stop op left', he⟩
  | @step op s ts vs left right n hr hn ihr ihn =>
    obtain ⟨left', rfl, he⟩ := hq
    simp only [List.map_cons, List.map_append, List.map_eq_cons_iff, List.map_eq_append_iff] at hk
    obtain ⟨⟨_, s'⟩, _, rfl, rfl, us, vs, rfl, hus, hvs⟩ := hk
    obtain ⟨right', hright, hre⟩ := ihr hus rfl
    have hjoin : (Condition.join op left' right').bare = (Condition.join op left right).bare := by
      simp only [Condition.bare, Condition.mapSpans_join] at he hre ⊢
      rw [he, hre]
    obtain ⟨m, hm, hme⟩ := ihn hvs ⟨_, rfl, hjoin⟩
    exact ⟨m, .step op s' hright hm, hme⟩

/-! Tokens whose spans have been moved spell the condition with its spans moved. -/

def Token.mapSpan (f : Span → Span) (t : Token) : Token := { t with span := f t.span }

def Phrase.mapSpans (f : Span → Span) : Phrase → Phrase
  | .whole layer => .whole layer
  | .onward op left => .onward op (left.mapSpans f)

section

variable {f : Span → Span}

theorem DerivesLiterals.mapSpans {ts : List Token} {ls : List Literal} (h : DerivesLiterals ts ls) :
    DerivesLiterals (ts.map (Token.mapSpan f)) (ls.map (Literal.mapSpan f)) := by
  induction h with
  | last l => exact .last (l.mapSpan f)
  | more l s _ ih => exact .more (l.mapSpan f) (f s) ih

variable (hf : ∀ a b, f (a.union b) = (f a).union (f b))

include hf

theorem DerivesOperand.mapSpans {op : CompareOp} {ts : List Token} {x : Operand} {s : Span}
    (h : DerivesOperand op ts x s) :
    DerivesOperand op (ts.map (Token.mapSpan f)) (x.mapSpans f) (f s) := by
  cases h with
  | single l hop => exact .single (l.mapSpan f) hop
  | noLiterals a b hop =>
    rw [hf]
    exact .noLiterals (f a) (f b) hop
  | literals a b hop hl =>
    rw [hf, List.map_cons, List.map_append]
    exact .literals (f a) (f b) hop hl.mapSpans

/-- Moving the tokens moves the condition that they spell. -/
theorem Derives.mapSpans {p : Phrase} {ts : List Token} {n : Condition} (h : Derives p ts n) :
    Derives (p.mapSpans f) (ts.map (Token.mapSpan f)) (n.mapSpans f) := by
  induction h with
  | comparison path a b op ic hop =>
    have hcomparison := Derives.comparison path (f a) (f b) op ic (hop.mapSpans hf)
    rw [← hf] at hcomparison
    exact hcomparison
  | group a b _ ih =>
    rw [List.map_cons, List.map_append]
    exact .group (f a) (f b) ih
  | chain op _ _ ihl ihn =>
    rw [List.map_append]
    exact .chain op ihl ihn
  | stop op left => exact .stop op (left.mapSpans f)
  | step op s _ _ ihr ihn =>
    rw [List.map_cons, List.map_append]
    rw [Phrase.mapSpans, Condition.mapSpans_join] at ihn
    exact .step op (f s) ihr ihn

/-- Where tokens have been moved, the condition that they spell has been moved. -/
theorem Derives.of_mapSpans {layer : Layer} {us : List Token} {n : Condition}
    (h : Derives (.whole layer) (us.map (Token.mapSpan f)) n) :
    ∃ m, Derives (.whole layer) us m ∧ m.mapSpans f = n := by
  have hkinds : us.map Token.kind = (us.map (Token.mapSpan f)).map Token.kind := by
    rw [List.map_map]
    rfl
  obtain ⟨m, hm, _⟩ := h.respell hkinds rfl
  exact ⟨m, hm, (hm.mapSpans hf).unique h⟩

end

theorem Operand.kinds_mapSpans (f : Span → Span) (o : Operand) :
    (o.mapSpans f).kinds = o.kinds := by
  cases o with
  | single l => rfl
  | list ls =>
    have hkind : Literal.tokenKind ∘ Literal.mapSpan f = Literal.tokenKind := rfl
    rw [mapSpans, kinds, kinds, List.map_map, hkind]

/-- The kinds of the tokens of a condition do not depend on spans. -/
theorem Condition.kinds_mapSpans (f : Span → Span) (n : Condition) :
    (n.mapSpans f).kinds = n.kinds := by
  induction n with
  | comparison c => simp [mapSpans, kinds, Comparison.kinds, Comparison.mapSpans,
      Operand.kinds_mapSpans]
  | and l r hl hr => simp [mapSpans, kinds, hl, hr]
  | or l r hl hr => simp [mapSpans, kinds, hl, hr]
  | group n ih => simp [mapSpans, kinds, ih]

theorem Condition.kinds_eq_of_bare_eq {n m : Condition} (h : m.bare = n.bare) :
    m.kinds = n.kinds := by
  rw [← m.kinds_mapSpans (fun _ => {}), ← n.kinds_mapSpans (fun _ => {})]
  exact congrArg Condition.kinds h

/-! Compiling copies spans into errors and does nothing else with them. -/

def CompileError.mapSpan (f : Span → Span) : CompileError → CompileError
  | .unknownField path s => .unknownField path (f s)
  | .typeMismatch path expected found literal s => .typeMismatch path expected found literal (f s)
  | .unsupportedOperator path usage kind s => .unsupportedOperator path usage kind (f s)
  | .invalidLiteral path literal expected demand s =>
    .invalidLiteral path literal expected demand (f s)
  | .notComparable path described s => .notComparable path described (f s)

/-- A field that is moved is resolved as before, and its error is moved along with it. -/
theorem resolveField_mapSpan (f : Span → Span) (caseSensitive : Bool) (shape : Shape)
    (path : String) (s : Span) :
    resolveField caseSensitive shape path (f s) =
      (resolveField caseSensitive shape path s).mapError (CompileError.mapSpan f) := by
  unfold resolveField
  cases shape.resolve caseSensitive path with
  | ok field => rfl
  | error fault => cases fault <;> rfl

theorem checkOperator_mapSpans (f : Span → Span) (c : Comparison) (kind : ValueKind) :
    checkOperator (c.mapSpans f) kind =
      (checkOperator c kind).mapError (CompileError.mapSpan f) := by
  unfold checkOperator
  rw [apply_ite (Except.mapError (CompileError.mapSpan f)),
    apply_ite (Except.mapError (CompileError.mapSpan f))]
  rfl

/-- A literal that is moved has the same value, and its error is moved along with it. -/
theorem coerce_mapSpans (f : Span → Span) (c : Comparison) (field : ResolvedField) (l : Literal) :
    coerce (c.mapSpans f) field (l.mapSpan f) =
      (coerce c field l).mapError (CompileError.mapSpan f) := by
  obtain ⟨lkind, text, span⟩ := l
  obtain ⟨steps, kind, variants⟩ := field
  cases kind <;> cases lkind <;> try rfl
  all_goals simp only [coerce, Comparison.mapSpans, Literal.mapSpan]
  · cases Decimal.read (trimBlanks text.toList) <;> rfl
  · cases Decimal.read (trimBlanks text.toList) <;> rfl
  · cases readTruthValue text <;> rfl
  · cases Temporal.read text.toList <;> rfl
  · cases Temporal.read text.toList <;> rfl
  · cases findVariant variants c.ignoreCase text <;> rfl

theorem coerceAll_mapSpans (f : Span → Span) (c : Comparison) (field : ResolvedField)
    (ls : List Literal) :
    coerceAll (c.mapSpans f) field (ls.map (Literal.mapSpan f)) =
      (coerceAll c field ls).mapError (CompileError.mapSpan f) := by
  induction ls with
  | nil => rfl
  | cons l ls ih =>
    simp only [List.map_cons, coerceAll, coerce_mapSpans, ih]
    cases coerce c field l with
    | error e => rfl
    | ok value => cases coerceAll c field ls <;> rfl

theorem coerceOperand_mapSpans (f : Span → Span) (c : Comparison) (field : ResolvedField) :
    coerceOperand (c.mapSpans f) field =
      (coerceOperand c field).mapError (CompileError.mapSpan f) := by
  obtain ⟨path, fieldSpan, op, ignoreCase, operand, span⟩ := c
  cases operand with
  | single l =>
    have hl := coerce_mapSpans f ⟨path, fieldSpan, op, ignoreCase, .single l, span⟩ field l
    simp only [coerceOperand]
    rw [apply_ite (Except.mapError (CompileError.mapSpan f)), ← hl]
    rfl
  | list ls =>
    have hls := coerceAll_mapSpans f ⟨path, fieldSpan, op, ignoreCase, .list ls, span⟩ field ls
    simp only [coerceOperand, Comparison.mapSpans, Operand.mapSpans] at hls ⊢
    rw [hls]
    cases coerceAll ⟨path, fieldSpan, op, ignoreCase, .list ls, span⟩ field ls <;> rfl

/-- A comparison that is moved is compiled as before, and its error is moved along with it. -/
theorem Comparison.compile_mapSpans (f : Span → Span) (options : CompileOptions) (shape : Shape)
    (c : Comparison) :
    (c.mapSpans f).compile options shape =
      (c.compile options shape).mapError (CompileError.mapSpan f) := by
  have hfield := resolveField_mapSpan f options.caseSensitive shape c.field c.fieldSpan
  simp only [Comparison.compile, checkOperator_mapSpans, coerceOperand_mapSpans]
  simp only [Comparison.mapSpans, hfield]
  cases resolveField options.caseSensitive shape c.field c.fieldSpan with
  | error e => rfl
  | ok field =>
    change (checkOperator c field.kind).mapError (CompileError.mapSpan f) >>= _ =
      Except.mapError _ (checkOperator c field.kind >>= _)
    cases checkOperator c field.kind with
    | error e => rfl
    | ok =>
      change (coerceOperand c field).mapError (CompileError.mapSpan f) >>= _ =
        Except.mapError _ (coerceOperand c field >>= _)
      cases coerceOperand c field <;> rfl

/-- Compiling does not depend on spans, apart from those in its errors. -/
theorem Condition.compile_mapSpans (f : Span → Span) (options : CompileOptions) (shape : Shape)
    (n : Condition) :
    (n.mapSpans f).compile options shape =
      (n.compile options shape).mapError (CompileError.mapSpan f) := by
  induction n with
  | comparison c => exact c.compile_mapSpans f options shape
  | and l r hl hr =>
    simp only [mapSpans, compile, hl, hr]
    cases l.compile options shape with
    | error e => rfl
    | ok p => cases r.compile options shape <;> rfl
  | or l r hl hr =>
    simp only [mapSpans, compile, hl, hr]
    cases l.compile options shape with
    | error e => rfl
    | ok p => cases r.compile options shape <;> rfl
  | group n ih => exact ih

/-- Conditions that are equal apart from spans have the same predicates. -/
theorem Condition.compile_eq_ok_of_bare_eq {n m : Condition} (h : m.bare = n.bare)
    (options : CompileOptions) (shape : Shape) (p : Predicate) :
    m.compile options shape = .ok p ↔ n.compile options shape = .ok p := by
  have hbare : ∀ n : Condition,
      n.bare.compile options shape = .ok p ↔ n.compile options shape = .ok p := by
    intro n
    rw [bare, compile_mapSpans, mapError_eq_ok_iff]
  rw [← hbare m, h, hbare n]

end RecordFilter
