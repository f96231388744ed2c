import RecordFilter.Proofs.Places

/-!
The rules for comparisons. A comparison compiles just if its path leads to a single value, its
operator and its flag fit the kind of this value, a null is compared for equality, and every literal
can be read as a value of the kind. Otherwise the error is the first of these rules that is broken.
-/
namespace RecordFilter

/-- Every kind has equality and membership. Only a text can be looked into, and there is no order
among truth values and among variants. -/
def ValueKind.HasOperator (kind : ValueKind) (op : CompareOp) : Prop :=
  kind = .string ∨
    op ∉ [CompareOp.contains, .notContains, .startsWith, .notStartsWith, .endsWith,
      .notEndsWith] ∧
    (kind = .boolean ∨ kind = .enumeration →
      op ∉ [CompareOp.greaterThan, .greaterThanOrEqual, .lessThan, .lessThanOrEqual])

/-- Texts and variants are written in letters that have a case. -/
def ValueKind.HasLetters (kind : ValueKind) : Prop := kind = .string ∨ kind = .enumeration

inductive ValueKind.Takes : ValueKind → LiteralKind → Prop
  | null (kind : ValueKind) : Takes kind .null
  | string (kind : ValueKind) : Takes kind .string
  | number : Takes .number .number
  | boolean : Takes .boolean .boolean
  | date : Takes .date .date

/-- The literals that can be read as values of a field. -/
inductive ResolvedField.Accepts (field : ResolvedField) (ignoreCase : Bool) (l : Literal) : Prop
  | null : l.kind = .null → Accepts field ignoreCase l
  | text : field.kind = .string → l.kind = .string → Accepts field ignoreCase l
  | number : field.kind = .number → l.kind = .number ∨ l.kind = .string →
    (Decimal.read (trimBlanks l.text.toList)).isSome = true → Accepts field ignoreCase l
  | boolean : field.kind = .boolean → l.kind = .boolean → Accepts field ignoreCase l
  | truthValue : field.kind = .boolean → l.kind = .string →
    sameIgnoringCase l.text "true" = true ∨ sameIgnoringCase l.text "false" = true →
    Accepts field ignoreCase l
  | temporal : field.kind = .date → l.kind = .date ∨ l.kind = .string →
    (Temporal.read l.text.toList).isSome = true → Accepts field ignoreCase l
  | variant {v : String} : field.kind = .enumeration → l.kind = .string → v ∈ field.variants →
    v = l.text ∨ ignoreCase = true ∧ sameIgnoringCase v l.text = true → Accepts field ignoreCase l

/-- What a literal is asked to be if its kind is taken but its text cannot be read. -/
inductive ResolvedField.Demands (field : ResolvedField) : Demand → Prop
  | number : field.kind = .number → Demands field .number
  | truthValue : field.kind = .boolean → Demands field .truthValue
  | temporal : field.kind = .date → Demands field .temporal
  | variant : field.kind = .enumeration → Demands field (.variant field.variants)

namespace Comparison

/-- A null on its own is only compared for equality. -/
def NullFits (c : Comparison) : Prop :=
  ∀ l, c.operand = .single l → l.kind = .null → c.op = .equals ∨ c.op = .notEquals

/-- Why a literal is refused: for its kind, or for its text. -/
inductive Refuses (c : Comparison) (field : ResolvedField) (l : Literal) : CompileError → Prop
  | kind : ¬ field.kind.Takes l.kind →
    Refuses c field l (.typeMismatch c.field field.kind l.kind l.text l.span)
  | text {demand : Demand} : field.kind.Takes l.kind → ¬ field.Accepts c.ignoreCase l →
    field.Demands demand → Refuses c field l (.invalidLiteral c.field l.text field.kind demand l.span)

/-- The first rule that a comparison breaks. -/
inductive Breaks (options : CompileOptions) (shape : Shape) (c : Comparison) : CompileError → Prop
  | unknownField : shape.resolve options.caseSensitive c.field = .error .unknown →
    Breaks options shape c (.unknownField c.field c.fieldSpan)
  | notComparable {described : String} :
    shape.resolve options.caseSensitive c.field = .error (.notScalar described) →
    Breaks options shape c (.notComparable c.field described c.fieldSpan)
  | operator {field : ResolvedField} :
    shape.resolve options.caseSensitive c.field = .ok field → ¬ field.kind.HasOperator c.op →
    Breaks options shape c (.unsupportedOperator c.field (.plain c.op) field.kind c.span)
  | ignoreCase {field : ResolvedField} :
    shape.resolve options.caseSensitive c.field = .ok field → field.kind.HasOperator c.op →
    c.ignoreCase = true → ¬ field.kind.HasLetters →
    Breaks options shape c (.unsupportedOperator c.field (.ignoringCase c.op) field.kind c.span)
  | null {field : ResolvedField} :
    shape.resolve options.caseSensitive c.field = .ok field → field.kind.HasOperator c.op →
    (c.ignoreCase = true → field.kind.HasLetters) → ¬ c.NullFits →
    Breaks options shape c (.unsupportedOperator c.field (.withNull c.op) field.kind c.span)
  | literal {field : ResolvedField} {before after : List Literal} {l : Literal} {e : CompileError} :
    shape.resolve options.caseSensitive c.field = .ok field → field.kind.HasOperator c.op →
    (c.ignoreCase = true → field.kind.HasLetters) → c.NullFits →
    c.operand.literals = before ++ l :: after → (∀ b ∈ before, field.Accepts c.ignoreCase b) →
    c.Refuses field l e → Breaks options shape c e

end Comparison

/-! Fields. -/

section

variable {caseSensitive : Bool} {shape : Shape} {path : String} {span : Span}

theorem resolveField_eq_ok_iff {field : ResolvedField} :
    resolveField caseSensitive shape path span = .ok field ↔
      shape.resolve caseSensitive path = .ok field := by
  unfold resolveField
  cases shape.resolve caseSensitive path with
  | ok found => simp
  | error fault => cases fault <;> simp

theorem resolveField_eq_error_iff {e : CompileError} :
    resolveField caseSensitive shape path span = .error e ↔
      shape.resolve caseSensitive path = .error .unknown ∧ .unknownField path span = e ∨
      ∃ described, shape.resolve caseSensitive path = .error (.notScalar described) ∧
        .notComparable path described span = e := by
  unfold resolveField
  cases shape.resolve caseSensitive path with
  | ok found => simp
  | error fault => cases fault <;> simp

end

/-! Operators. -/

/-- The table of operators, which goes by classes of operators, agrees with the rule that names
them. -/
theorem ValueKind.supports_iff {kind : ValueKind} {op : CompareOp} :
    kind.supports op = true ↔ kind.HasOperator op := by
  rw [HasOperator, ← CompareOp.isTextMatch_iff, ← CompareOp.isOrdering_iff]
  cases kind <;> simp [supports]

theorem ValueKind.hasCase_iff {kind : ValueKind} : kind.hasCase = true ↔ kind.HasLetters := by
  cases kind <;> simp [hasCase, HasLetters]

section

variable {c : Comparison} {kind : ValueKind} {field : ResolvedField} {l : Literal}
  {e : CompileError}

theorem checkOperator_eq_ok_iff : checkOperator c kind = .ok () ↔
    kind.HasOperator c.op ∧ (c.ignoreCase = true → kind.HasLetters) := by
  rw [← ValueKind.supports_iff, ← ValueKind.hasCase_iff, checkOperator]
  cases kind.supports c.op <;> cases c.ignoreCase <;> cases kind.hasCase <;> simp

/-- The operator itself is refused first, and only then its suffix. -/
theorem checkOperator_eq_error_iff : checkOperator c kind = .error e ↔
    ¬ kind.HasOperator c.op ∧ .unsupportedOperator c.field (.plain c.op) kind c.span = e ∨
    kind.HasOperator c.op ∧ (c.ignoreCase = true ∧ ¬ kind.HasLetters) ∧
      .unsupportedOperator c.field (.ignoringCase c.op) kind c.span = e := by
  rw [← ValueKind.supports_iff, ← ValueKind.hasCase_iff, checkOperator]
  cases kind.supports c.op <;> cases c.ignoreCase <;> cases kind.hasCase <;> simp

/-! Literals. -/

theorem readTruthValue_isSome_iff {text : String} : (readTruthValue text).isSome = true ↔
    sameIgnoringCase text "true" = true ∨ sameIgnoringCase text "false" = true := by
  unfold readTruthValue
  cases sameIgnoringCase text "true" <;> cases sameIgnoringCase text "false" <;> simp

/-- Without letter case any variant that differs in ASCII case only will do. -/
theorem findVariant_isSome_iff {variants : List String} {ignoreCase : Bool} {text : String} :
    (findVariant variants ignoreCase text).isSome = true ↔
      ∃ v ∈ variants, v = text ∨ ignoreCase = true ∧ sameIgnoringCase v text = true := by
  rw [findVariant, Option.isSome_or, Bool.or_eq_true, List.find?_isSome]
  cases ignoreCase with
  | false => simp
  | true => simp [List.find?_isSome, and_or_left, exists_or]

theorem ResolvedField.Accepts.takes {ignoreCase : Bool} (h : field.Accepts ignoreCase l) :
    field.kind.Takes l.kind := by
  cases h with
  | null hl => exact hl ▸ .null _
  | text hkind hl | truthValue hkind hl | variant hkind hl => exact hl ▸ .string _
  | number hkind hl =>
    obtain hl | hl := hl
    · exact hkind ▸ hl ▸ .number
    · exact hl ▸ .string _
  | boolean hkind hl => exact hkind ▸ hl ▸ .boolean
  | temporal hkind hl =>
    obtain hl | hl := hl
    · exact hkind ▸ hl ▸ .date
    · exact hl ▸ .string _

/-! Where the kind of a literal is taken, its text decides. -/

section Texts

variable {ignoreCase : Bool}

theorem ResolvedField.accepts_number_iff (hkind : field.kind = .number)
    (hl : l.kind = .number ∨ l.kind = .string) :
    field.Accepts ignoreCase l ↔ (Decimal.read (trimBlanks l.text.toList)).isSome = true := by
  constructor
  · intro h
    cases h with
    | number _ _ hread => exact hread
    | _ => simp_all
  · exact .number hkind hl

theorem ResolvedField.accepts_truthValue_iff (hkind : field.kind = .boolean)
    (hl : l.kind = .string) :
    field.Accepts ignoreCase l ↔ (readTruthValue l.text).isSome = true := by
  rw [readTruthValue_isSome_iff]
  constructor
  · intro h
    cases h with
    | truthValue _ _ hread => exact hread
    | _ => simp_all
  · exact .truthValue hkind hl

theorem ResolvedField.accepts_temporal_iff (hkind : field.kind = .date)
    (hl : l.kind = .date ∨ l.kind = .string) :
    field.Accepts ignoreCase l ↔ (Temporal.read l.text.toList).isSome = true := by
  constructor
  · intro h
    cases h with
    | temporal _ _ hread => exact hread
    | _ => simp_all
  · exact .temporal hkind hl

theorem ResolvedField.accepts_variant_iff (hkind : field.kind = .enumeration)
    (hl : l.kind = .string) :
    field.Accepts ignoreCase l ↔ (findVariant field.variants ignoreCase l.text).isSome = true := by
  rw [findVariant_isSome_iff]
  constructor
  · intro h
    cases h with
    | variant _ _ hmem hnames => exact ⟨_, hmem, hnames⟩
    | _ => simp_all
  · rintro ⟨v, hmem, hnames⟩
    exact .variant hkind hl hmem hnames

end Texts

/-- A literal is read as a value just if its text can be read. -/
theorem coerce_of_read {α : Type} {found : Option α} {value : α → Value} {demand : Demand}
    (hcoerce : coerce c field l = match found.map value with
      | some value => .ok value
      | none => .error (.invalidLiteral c.field l.text field.kind demand l.span))
    (hfound : field.Accepts c.ignoreCase l ↔ found.isSome = true)
    (htakes : field.kind.Takes l.kind) (hdemand : field.Demands demand) :
    (∃ value, coerce c field l = .ok value) ∧ field.Accepts c.ignoreCase l ∨
      ∃ e, coerce c field l = .error e ∧ c.Refuses field l e := by
  rw [hcoerce, hfound]
  cases found with
  | some a => exact .inl ⟨⟨value a, rfl⟩, rfl⟩
  | none => exact .inr ⟨_, rfl, .text htakes (by simp [hfound]) hdemand⟩

/-- A literal is either accepted and compiled, or refused with the reason given. -/
theorem coerce_cases (c : Comparison) (field : ResolvedField) (l : Literal) :
    (∃ value, coerce c field l = .ok value) ∧ field.Accepts c.ignoreCase l ∨
      ∃ e, coerce c field l = .error e ∧ c.Refuses field l e := by
  obtain ⟨lkind, text, span⟩ := l
  obtain ⟨steps, kind, variants⟩ := field
  cases kind <;> cases lkind
  case string.null | number.null | boolean.null | date.null | enumeration.null =>
    exact .inl ⟨⟨_, rfl⟩, .null rfl⟩
  case string.string => exact .inl ⟨⟨_, rfl⟩, .text rfl rfl⟩
  case boolean.boolean => exact .inl ⟨⟨_, rfl⟩, .boolean rfl rfl⟩
  case number.string =>
    apply coerce_of_read rfl (ResolvedField.accepts_number_iff rfl (.inr rfl)) (.string _)
    exact .number rfl
  case number.number =>
    apply coerce_of_read rfl (ResolvedField.accepts_number_iff rfl (.inl rfl)) .number
    exact .number rfl
  case boolean.string =>
    apply coerce_of_read rfl (ResolvedField.accepts_truthValue_iff rfl rfl) (.string _)
    exact .truthValue rfl
  case date.string =>
    apply coerce_of_read rfl (ResolvedField.accepts_temporal_iff rfl (.inr rfl)) (.string _)
    exact .temporal rfl
  case date.date =>
    apply coerce_of_read rfl (ResolvedField.accepts_temporal_iff rfl (.inl rfl)) .date
    exact .temporal rfl
  case enumeration.string =>
    apply coerce_of_read rfl (ResolvedField.accepts_variant_iff rfl rfl) (.string _)
    exact .variant rfl
  all_goals exact .inr ⟨_, rfl, .kind nofun⟩

theorem Comparison.Refuses.not_accepts (h : c.Refuses field l e) :
    ¬ field.Accepts c.ignoreCase l := by
  cases h with
  | kind hkind => exact fun haccepts => hkind haccepts.takes
  | text _ htext => exact htext

theorem ResolvedField.Demands.unique {demand demand' : Demand} (h : field.Demands demand)
    (h' : field.Demands demand') : demand = demand' := by
  cases h <;> cases h' <;> simp_all

/-- There is only one reason to refuse a literal. -/
theorem Comparison.Refuses.unique {e' : CompileError} (h : c.Refuses field l e)
    (h' : c.Refuses field l e') : e = e' := by
  cases h with
  | kind hkind =>
    cases h' with
    | kind => rfl
    | text htakes => exact absurd htakes hkind
  | text htakes _ hdemand =>
    cases h' with
    | kind hkind => exact absurd htakes hkind
    | text _ _ hdemand' => rw [hdemand.unique hdemand']

theorem coerce_eq_ok_iff :
    (∃ value, coerce c field l = .ok value) ↔ field.Accepts c.ignoreCase l := by
  obtain ⟨hok, haccepts⟩ | ⟨e, herror, hrefuses⟩ := coerce_cases c field l
  · exact iff_of_true hok haccepts
  · refine iff_of_false ?_ hrefuses.not_accepts
    rintro ⟨value, hok⟩
    rw [herror] at hok
    cases hok

/-- The error of a literal is the reason to refuse it. -/
theorem coerce_eq_error_iff : coerce c field l = .error e ↔ c.Refuses field l e := by
  obtain ⟨⟨value, hok⟩, haccepts⟩ | ⟨e', herror, hrefuses⟩ := coerce_cases c field l
  · rw [hok]
    exact iff_of_false nofun fun hrefuses => hrefuses.not_accepts haccepts
  · rw [herror, Except.error.injEq]
    constructor
    · rintro rfl
      exact hrefuses
    · exact hrefuses.unique

/-! Operands. -/

/-- A list is compiled just if each of its literals is accepted. -/
theorem coerceAll_eq_ok_iff {ls : List Literal} :
    (∃ values, coerceAll c field ls = .ok values) ↔ ∀ l ∈ ls, field.Accepts c.ignoreCase l := by
  induction ls with
  | nil => simp [coerceAll]
  | cons l ls ih =>
    rw [List.forall_mem_cons, ← ih, ← coerce_eq_ok_iff]
    simp only [coerceAll, bind_eq_ok_iff]
    constructor
    · rintro ⟨_, value, hl, values, hls, _⟩
      exact ⟨⟨value, hl⟩, values, hls⟩
    · rintro ⟨⟨value, hl⟩, values, hls⟩
      exact ⟨_, value, hl, values, hls, rfl⟩

/-- The first literal that is refused is reported. -/
theorem coerceAll_eq_error_iff {ls : List Literal} :
    coerceAll c field ls = .error e ↔ ∃ before l after, ls = before ++ l :: after ∧
      (∀ b ∈ before, field.Accepts c.ignoreCase b) ∧ c.Refuses field l e := by
  induction ls with
  | nil => simp [coerceAll]
  | cons l ls ih =>
    rw [coerceAll, bind_eq_error_iff, coerce_eq_error_iff]
    constructor
    · rintro (hl | ⟨value, hl, h⟩)
      · exact ⟨[], l, ls, rfl, by simp, hl⟩
      · obtain hls | ⟨values, _, h⟩ := bind_eq_error_iff.mp h
        · obtain ⟨before, m, after, rfl, hbefore, hm⟩ := ih.mp hls
          have haccepts := coerce_eq_ok_iff.mp ⟨value, hl⟩
          exact ⟨l :: before, m, after, rfl, List.forall_mem_cons.mpr ⟨haccepts, hbefore⟩, hm⟩
        · cases h
    · rintro ⟨before, m, after, heq, hbefore, hm⟩
      cases before with
      | nil =>
        cases heq
        exact .inl hm
      | cons b before =>
        cases heq
        obtain ⟨haccepts, hbefore⟩ := List.forall_mem_cons.mp hbefore
        obtain ⟨value, hvalue⟩ := coerce_eq_ok_iff.mpr haccepts
        refine .inr ⟨value, hvalue, bind_eq_error_iff.mpr (.inl ?_)⟩
        exact ih.mpr ⟨before, m, after, rfl, hbefore, hm⟩

/-- That a null stands on its own with another operator is seen before its kind is. -/
theorem coerceOperand_of_not_nullFits (h : ¬ c.NullFits) : coerceOperand c field =
    .error (.unsupportedOperator c.field (.withNull c.op) field.kind c.span) := by
  simp only [Comparison.NullFits, not_forall] at h
  obtain ⟨l, hoperand, hnull, hop⟩ := h
  have hequality : (!c.op.isEquality) = true := by
    cases hc : c.op <;> simp_all [CompareOp.isEquality]
  simp only [coerceOperand, hoperand]
  exact if_pos ⟨hnull, hequality⟩

/-- Otherwise an operand is read if all its literals are. -/
theorem coerceOperand_of_nullFits (field : ResolvedField) (h : c.NullFits) :
    ∃ build : List Value → Value,
      coerceOperand c field = (coerceAll c field c.operand.literals).map build := by
  cases hoperand : c.operand with
  | list ls =>
    refine ⟨.list, ?_⟩
    simp only [coerceOperand, hoperand, Operand.literals]
  | single l =>
    have hguard : ¬ (l.kind = .null ∧ (!c.op.isEquality) = true) := by
      rintro ⟨hnull, hop⟩
      obtain heq | heq := h l hoperand hnull
      · rw [heq] at hop
        cases hop
      · rw [heq] at hop
        cases hop
    refine ⟨fun values => values.headD .null, ?_⟩
    simp only [coerceOperand, hoperand, if_neg hguard, Operand.literals, coerceAll]
    cases coerce c field l with
    | error e => rfl
    | ok value => rfl

theorem coerceOperand_eq_ok_iff : (∃ value, coerceOperand c field = .ok value) ↔
    c.NullFits ∧ ∀ l ∈ c.operand.literals, field.Accepts c.ignoreCase l := by
  by_cases h : c.NullFits
  · obtain ⟨build, hbuild⟩ := coerceOperand_of_nullFits field h
    rw [hbuild, and_iff_right h, ← coerceAll_eq_ok_iff]
    constructor
    · rintro ⟨_, hvalue⟩
      obtain ⟨values, hvalues, _⟩ := map_eq_ok_iff.mp hvalue
      exact ⟨values, hvalues⟩
    · rintro ⟨values, hvalues⟩
      exact ⟨build values, map_eq_ok_iff.mpr ⟨values, hvalues, rfl⟩⟩
  · simp [coerceOperand_of_not_nullFits h, h]

/-- The first literal of a list that is refused decides the error of the list. -/
theorem coerceOperand_eq_error_iff : coerceOperand c field = .error e ↔
    ¬ c.NullFits ∧ .unsupportedOperator c.field (.withNull c.op) field.kind c.span = e ∨
    c.NullFits ∧ ∃ before l after, c.operand.literals = before ++ l :: after ∧
      (∀ b ∈ before, field.Accepts c.ignoreCase b) ∧ c.Refuses field l e := by
  by_cases h : c.NullFits
  · obtain ⟨build, hbuild⟩ := coerceOperand_of_nullFits field h
    rw [hbuild, map_eq_error_iff, coerceAll_eq_error_iff]
    simp [h]
  · simp [coerceOperand_of_not_nullFits h, h]

end

/-! The stages of compiling a comparison. -/

/-- A comparison is compiled just if its field, its operator and its operand all pass. -/
theorem Comparison.compile_eq_ok_iff {options : CompileOptions} {shape : Shape} {c : Comparison}
    {p : Predicate} : c.compile options shape = .ok p ↔
      ∃ field value, shape.resolve options.caseSensitive c.field = .ok field ∧
        (field.kind.HasOperator c.op ∧ (c.ignoreCase = true → field.kind.HasLetters)) ∧
        coerceOperand c field = .ok value ∧
        quantify options.quantifier (fun path => .compare path field.kind c.op value c.ignoreCase)
          [] field.steps = p := by
  simp only [compile, bind_eq_ok_iff, resolveField_eq_ok_iff, ← checkOperator_eq_ok_iff]
  constructor
  · rintro ⟨field, hfield, _, hop, value, hvalue, heq⟩
    exact ⟨field, value, hfield, hop, hvalue, Except.ok.inj heq⟩
  · rintro ⟨field, value, hfield, hop, hvalue, rfl⟩
    exact ⟨field, hfield, (), hop, value, hvalue, rfl⟩

/-- A comparison fails at its field first, then at its operator, and then at its operand. -/
theorem Comparison.compile_eq_error_iff {options : CompileOptions} {shape : Shape}
    {c : Comparison} {e : CompileError} : c.compile options shape = .error e ↔
      resolveField options.caseSensitive shape c.field c.fieldSpan = .error e ∨
      ∃ field, shape.resolve options.caseSensitive c.field = .ok field ∧
        (checkOperator c field.kind = .error e ∨
          (field.kind.HasOperator c.op ∧ (c.ignoreCase = true → field.kind.HasLetters)) ∧
            coerceOperand c field = .error e) := by
  simp only [compile, bind_eq_error_iff, resolveField_eq_ok_iff]
  refine or_congr_right (exists_congr fun field => and_congr_right fun _ => or_congr_right ?_)
  rw [← checkOperator_eq_ok_iff]
  constructor
  · rintro ⟨_, hop, hvalue | ⟨_, _, h⟩⟩
    · exact ⟨hop, hvalue⟩
    · cases h
  · rintro ⟨hop, hvalue⟩
    exact ⟨(), hop, .inl hvalue⟩

/-- A comparison compiles just if it keeps all rules, and else the first rule that it breaks is
reported. -/
theorem Comparison.compile_decides_rules (options : CompileOptions) (shape : Shape)
    (c : Comparison) :
    ((∃ p, c.compile options shape = .ok p) ↔
      ∃ field, shape.resolve options.caseSensitive c.field = .ok field ∧
        field.kind.HasOperator c.op ∧ (c.ignoreCase = true → field.kind.HasLetters) ∧
        c.NullFits ∧ ∀ l ∈ c.operand.literals, field.Accepts c.ignoreCase l) ∧
    ∀ e, c.compile options shape = .error e ↔ c.Breaks options shape e := by
  refine ⟨⟨?succeeds, ?keeps⟩, fun e => ⟨?fails, ?breaks⟩⟩
  case succeeds =>
    rintro ⟨p, h⟩
    obtain ⟨field, value, hfield, ⟨hop, hcase⟩, hvalue, _⟩ := compile_eq_ok_iff.mp h
    exact ⟨field, hfield, hop, hcase, coerceOperand_eq_ok_iff.mp ⟨value, hvalue⟩⟩
  case keeps =>
    rintro ⟨field, hfield, hop, hcase, hoperand⟩
    obtain ⟨value, hvalue⟩ := coerceOperand_eq_ok_iff.mpr hoperand
    exact ⟨_, compile_eq_ok_iff.mpr ⟨field, value, hfield, ⟨hop, hcase⟩, hvalue, rfl⟩⟩
  case fails =>
    intro h
    obtain hfield | ⟨field, hfield, hcheck | ⟨⟨hop, hcase⟩, hoperand⟩⟩ := compile_eq_error_iff.mp h
    · obtain ⟨hpath, rfl⟩ | ⟨described, hpath, rfl⟩ := resolveField_eq_error_iff.mp hfield
      · exact .unknownField hpath
      · exact .notComparable hpath
    · obtain ⟨hop, rfl⟩ | ⟨hop, ⟨hignore, hletters⟩, rfl⟩ := checkOperator_eq_error_iff.mp hcheck
      · exact .operator hfield hop
      · exact .ignoreCase hfield hop hignore hletters
    · obtain ⟨hnull, rfl⟩ | ⟨hnull, before, l, after, hliterals, hbefore, hl⟩ :=
        coerceOperand_eq_error_iff.mp hoperand
      · exact .null hfield hop hcase hnull
      · exact .literal hfield hop hcase hnull hliterals hbefore hl
  case breaks =>
    intro h
    rw [compile_eq_error_iff]
    cases h with
    | unknownField hpath => exact .inl (resolveField_eq_error_iff.mpr (.inl ⟨hpath, rfl⟩))
    | notComparable hpath => exact .inl (resolveField_eq_error_iff.mpr (.inr ⟨_, hpath, rfl⟩))
    | operator hfield hop =>
      refine .inr ⟨_, hfield, .inl ?_⟩
      exact checkOperator_eq_error_iff.mpr (.inl ⟨hop, rfl⟩)
    | ignoreCase hfield hop hignore hletters =>
      refine .inr ⟨_, hfield, .inl ?_⟩
      exact checkOperator_eq_error_iff.mpr (.inr ⟨hop, ⟨hignore, hletters⟩, rfl⟩)
    | null hfield hop hcase hnull =>
      refine .inr ⟨_, hfield, .inr ⟨⟨hop, hcase⟩, ?_⟩⟩
      exact coerceOperand_eq_error_iff.mpr (.inl ⟨hnull, rfl⟩)
    | literal hfield hop hcase hnull hliterals hbefore hl =>
      refine .inr ⟨_, hfield, .inr ⟨⟨hop, hcase⟩, ?_⟩⟩
      exact coerceOperand_eq_error_iff.mpr (.inr ⟨hnull, _, _, _, hliterals, hbefore, hl⟩)

/-- A variant in another case is refused before the number behind it, unless case is ignored. -/
theorem Comparison.compile_decides_rules_of_variants :
    let shape : Shape := .field "Course" (.enumeration ["Soup", "Dessert"]) .empty
    let soup : Literal := ⟨.string, "soup", ⟨11, 17⟩⟩
    let five : Literal := ⟨.number, "5", ⟨19, 20⟩⟩
    let isIn (ignoreCase : Bool) : Comparison :=
      ⟨"Course", ⟨0, 6⟩, .isIn, ignoreCase, .list [soup, five], ⟨0, 21⟩⟩
    (isIn false).compile {} shape = .error (.invalidLiteral "Course" "soup" .enumeration
        (.variant ["Soup", "Dessert"]) ⟨11, 17⟩) ∧
      (isIn true).compile {} shape =
        .error (.typeMismatch "Course" .enumeration .number "5" ⟨19, 20⟩) := by
  intro shape soup five isIn
  let field : ResolvedField := ⟨[⟨"Course", 0⟩], .enumeration, ["Soup", "Dessert"]⟩
  have hfield : shape.resolve true "Course" = .ok field := by decide +kernel
  have hop : field.kind.HasOperator .isIn := .inr ⟨by decide, fun _ => by decide⟩
  have hsoup : ∀ ignoreCase, field.Accepts ignoreCase soup ↔ ignoreCase = true := by
    intro ignoreCase
    rw [ResolvedField.accepts_variant_iff rfl rfl]
    revert ignoreCase
    decide +kernel
  constructor
  · have hliterals : (isIn false).operand.literals = [] ++ soup :: [five] := rfl
    apply ((compile_decides_rules {} shape (isIn false)).2 _).mpr
    refine .literal hfield hop nofun nofun hliterals (by simp) (.text (.string _) ?_ (.variant rfl))
    simp [isIn, hsoup]
  · have hliterals : (isIn true).operand.literals = [soup] ++ five :: [] := rfl
    apply ((compile_decides_rules {} shape (isIn true)).2 _).mpr
    refine .literal hfield hop (fun _ => .inr rfl) nofun hliterals ?_ (.kind nofun)
    simp [isIn, hsoup]

end RecordFilter
