import RecordFilter.Proofs.Lookup
import RecordFilter.Proofs.Paths

/-!
Types of predicates. A predicate is judged in a scope, which is the kind of the element that its
paths start from: the record itself, or an element of the collection of the innermost quantifier.
Everything that compiles is well typed in the scope of its record.
-/
namespace RecordFilter

/-- The kind at the end of a path: each segment is the exact name of a field of a plain object. -/
def FieldKind.walk : FieldKind → List String → Option FieldKind
  | kind, [] => some kind
  | .object fields, name :: rest => (fields.get? name).bind fun entry => entry.2.walk rest
  | _, _ :: _ => none

@[simp] theorem FieldKind.walk_nil (kind : FieldKind) : kind.walk [] = some kind := by
  cases kind <;> rfl

inductive Value.OfKind (variants : List String) : ValueKind → Value → Prop
  | null (kind : ValueKind) : OfKind variants kind .null
  | text (s : String) : OfKind variants .string (.text s)
  | number (d : Decimal) : OfKind variants .number (.number d)
  | boolean (b : Bool) : OfKind variants .boolean (.boolean b)
  | temporal (t : Temporal) : OfKind variants .date (.temporal t)
  | variant {s : String} : s ∈ variants → OfKind variants .enumeration (.text s)

/-- What an operator can be given: a list for membership, and otherwise a single value, which is
null only in comparisons for equality. -/
inductive Value.Suits (variants : List String) (kind : ValueKind) (op : CompareOp) : Value → Prop
  | list {values : List Value} : op ∈ [CompareOp.isIn, .isNotIn] →
    (∀ v ∈ values, OfKind variants kind v) → Suits variants kind op (.list values)
  | single {value : Value} : op ∉ [CompareOp.isIn, .isNotIn] → OfKind variants kind value →
    (value = .null → op ∈ [CompareOp.equals, .notEquals]) → Suits variants kind op value

/-- Which operators a kind of value has, and where letter case can be ignored. -/
structure ValueKind.Allows (kind : ValueKind) (op : CompareOp) (ignoreCase : Bool) : Prop where
  textMatch : op ∈ [CompareOp.contains, .notContains, .startsWith, .notStartsWith, .endsWith,
    .notEndsWith] → kind = .string
  ordering : op ∈ [CompareOp.greaterThan, .greaterThanOrEqual, .lessThan, .lessThanOrEqual] →
    kind ≠ .boolean ∧ kind ≠ .enumeration
  ignoreCase : ignoreCase = true → kind = .string ∨ kind = .enumeration

inductive Predicate.WellTyped : FieldKind → Predicate → Prop
  | compare {scope target : FieldKind} {path : FieldPath} {kind : ValueKind}
      {variants : List String} {op : CompareOp} {value : Value} {ignoreCase : Bool} :
    scope.walk path.segments = some target → target.scalar? = some (kind, variants) →
    kind.Allows op ignoreCase → value.Suits variants kind op →
    WellTyped scope (.compare path kind op value ignoreCase)
  | and {scope : FieldKind} {l r : Predicate} :
    WellTyped scope l → WellTyped scope r → WellTyped scope (.and l r)
  | or {scope : FieldKind} {l r : Predicate} :
    WellTyped scope l → WellTyped scope r → WellTyped scope (.or l r)
  | quantified {scope element : FieldKind} {quantifier : Quantifier} {collection : FieldPath}
      {inner : Predicate} :
    scope.walk collection.segments = some (.collection element) → WellTyped element inner →
    WellTyped scope (.quantified quantifier collection inner)

/-! Values. -/

/-- The two rules for operators agree, though one lists what is refused and the other what is
needed. -/
theorem ValueKind.HasOperator.allows {kind : ValueKind} {op : CompareOp} {ignoreCase : Bool}
    (h : kind.HasOperator op) (hcase : ignoreCase = true → kind.HasLetters) :
    kind.Allows op ignoreCase where
  textMatch htext := by
    obtain hkind | ⟨hplain, _⟩ := h
    · exact hkind
    · exact absurd htext hplain
  ordering hordering := by
    obtain rfl | ⟨_, hunordered⟩ := h
    · exact ⟨nofun, nofun⟩
    · exact not_or.mp fun hkind => hunordered hkind hordering
  ignoreCase := hcase

theorem findVariant_mem {variants : List String} {ignoreCase : Bool} {text found : String}
    (h : findVariant variants ignoreCase text = some found) : found ∈ variants := by
  unfold findVariant at h
  obtain h | ⟨_, h⟩ := Option.or_eq_some_iff.mp h
  · exact List.mem_of_find?_eq_some h
  · by_cases hcase : ignoreCase = true
    · rw [if_pos hcase] at h
      exact List.mem_of_find?_eq_some h
    · rw [if_neg hcase] at h
      cases h

/-- The value of a literal is of the kind of its field, and only the null literal gives a null. -/
theorem ofKind_of_coerce {c : Comparison} {field : ResolvedField} {l : Literal} {value : Value}
    (h : coerce c field l = .ok value) :
    value.OfKind field.variants field.kind ∧ (value = .null → l.kind = .null) := by
  obtain ⟨lkind, text, span⟩ := l
  obtain ⟨steps, kind, variants⟩ := field
  cases kind <;> cases lkind <;> simp only [coerce, reduceCtorEq] at h
  case string.null | number.null | boolean.null | date.null | enumeration.null =>
    cases h
    exact ⟨.null _, fun _ => rfl⟩
  case string.string | boolean.boolean =>
    cases h
    exact ⟨by constructor, nofun⟩
  case number.string | number.number =>
    cases hread : Decimal.read (trimBlanks text.toList) with
    | none => simp [hread] at h
    | some d =>
      simp only [hread, Option.map_some, Except.ok.injEq] at h
      exact h ▸ ⟨.number d, nofun⟩
  case boolean.string =>
    cases hread : readTruthValue text with
    | none => simp [hread] at h
    | some b =>
      simp only [hread, Option.map_some, Except.ok.injEq] at h
      exact h ▸ ⟨.boolean b, nofun⟩
  case date.string | date.date =>
    cases hread : Temporal.read text.toList with
    | none => simp [hread] at h
    | some t =>
      simp only [hread, Option.map_some, Except.ok.injEq] at h
      exact h ▸ ⟨.temporal t, nofun⟩
  case enumeration.string =>
    cases hread : findVariant variants c.ignoreCase text with
    | none => simp [hread] at h
    | some s =>
      simp only [hread, Option.map_some, Except.ok.injEq] at h
      exact h ▸ ⟨.variant (findVariant_mem hread), nofun⟩

theorem ofKind_of_coerceAll {c : Comparison} {field : ResolvedField} {ls : List Literal}
    {values : List Value} (h : coerceAll c field ls = .ok values) :
    ∀ v ∈ values, v.OfKind field.variants field.kind := by
  induction ls generalizing values with
  | nil =>
    cases h
    simp
  | cons l ls ih =>
    rw [coerceAll] at h
    obtain ⟨value, hl, h⟩ := bind_eq_ok_iff.mp h
    obtain ⟨rest, hls, h⟩ := bind_eq_ok_iff.mp h
    cases h
    intro v hv
    obtain rfl | hv := List.mem_cons.mp hv
    · exact (ofKind_of_coerce hl).1
    · exact ih hls v hv

/-- The grammar gives lists to the operators that take them, and to no others. -/
def Comparison.Balanced (c : Comparison) : Prop :=
  match c.operand with
  | .single _ => c.op ∉ [CompareOp.isIn, .isNotIn]
  | .list _ => c.op ∈ [CompareOp.isIn, .isNotIn]

/-- The value of an operand suits its operator, if the grammar has seen to lists. -/
theorem suits_of_coerceOperand {c : Comparison} {field : ResolvedField} {value : Value}
    (hc : c.Balanced) (h : coerceOperand c field = .ok value) :
    value.Suits field.variants field.kind c.op := by
  unfold coerceOperand at h
  unfold Comparison.Balanced at hc
  cases hoperand : c.operand with
  | single l =>
    simp only [hoperand] at h hc
    by_cases hnull : l.kind = .null ∧ (!c.op.isEquality) = true
    · rw [if_pos hnull] at h
      cases h
    · rw [if_neg hnull] at h
      obtain ⟨hkind, hvalue⟩ := ofKind_of_coerce h
      refine .single hc hkind fun hv => CompareOp.isEquality_iff.mp ?_
      cases hequality : c.op.isEquality with
      | true => rfl
      | false => exact absurd ⟨hvalue hv, by simp [hequality]⟩ hnull
  | list ls =>
    simp only [hoperand] at h hc
    obtain ⟨values, hls, rfl⟩ := map_eq_ok_iff.mp h
    exact .list hc (ofKind_of_coerceAll hls)

/-- Lists stand after the operators of membership and nowhere else. -/
theorem balanced_of_derivesOperand {op : CompareOp} {ts : List Token} {x : Operand} {s : Span}
    (h : DerivesOperand op ts x s) (path : String) (a b : Span) (ignoreCase : Bool) :
    Comparison.Balanced ⟨path, a, op, ignoreCase, x, b⟩ := by
  cases h with
  | single l hop => exact hop
  | noLiterals a b hop => exact hop
  | literals a b hop hl => exact hop

theorem Derives.balanced {p : Phrase} {ts : List Token} {n : Condition} (h : Derives p ts n)
    (hp : ∀ c ∈ p.comparisonsBefore, c.Balanced) : ∀ c ∈ n.comparisons, c.Balanced := by
  intro c hc
  obtain hc | ⟨b, os, s, hoperand, _⟩ := h.comparison_mem hc
  · exact hp c hc
  · exact balanced_of_derivesOperand hoperand _ _ _ _

/-! Paths. -/

theorem walk_append {kind inner : FieldKind} {path : List String}
    (h : kind.walk path = some inner) (more : List String) :
    kind.walk (path ++ more) = inner.walk more := by
  induction path generalizing kind with
  | nil =>
    rw [FieldKind.walk_nil] at h
    cases h
    rfl
  | cons name rest ih =>
    cases kind with
    | object fields =>
      obtain ⟨entry, hentry, hrest⟩ := Option.bind_eq_some_iff.mp h
      rw [List.cons_append, FieldKind.walk, hentry]
      exact ih hrest
    | _ => cases h

/-- A field that is found is walked to by its declared name. -/
theorem walk_lookup {caseSensitive : Bool} {shape : Shape} {scope kind : FieldKind}
    {names : List String} {name declared : String}
    (hscope : scope.walk names = some (.object shape))
    (h : shape.LooksUp caseSensitive name declared kind) :
    scope.walk (names ++ [declared]) = some kind := by
  rw [walk_append hscope, FieldKind.walk, Shape.get?_of_lookup h]
  exact FieldKind.walk_nil kind

/-- Quantifiers over the levels of a collection lead to what is inside. -/
theorem wellTyped_levels (q : Quantifier) {target : FieldKind} {p : Predicate}
    (h : Predicate.WellTyped target p) (depth : Nat) :
    Predicate.WellTyped (target.inCollections depth)
      (Nat.repeat (.quantified q .element) depth p) := by
  induction depth with
  | zero => exact h
  | succ depth ih => exact .quantified (FieldKind.walk_nil _) ih

/-- One step of a path, which goes on within the record or in the elements of a collection. -/
theorem wellTyped_quantify_cons {q : Quantifier} {leaf : FieldPath → Predicate}
    {scope target : FieldKind} {names : List String} {declared : String} {depth : Nat}
    {rest : List Step}
    (hwalk : scope.walk (names ++ [declared]) = some (target.inCollections depth))
    (hplain : ∀ scope' names', scope'.walk names' = some target →
      Predicate.WellTyped scope' (quantify q leaf names' rest)) :
    Predicate.WellTyped scope (quantify q leaf names (⟨declared, depth⟩ :: rest)) := by
  cases depth with
  | zero => exact hplain _ _ hwalk
  | succ depth =>
    exact .quantified hwalk (wellTyped_levels q (hplain _ _ (FieldKind.walk_nil _)) depth)

/-- Quantifiers around a well-typed leaf are well typed. The names gathered so far lead from the
scope to the shape that the other segments start in. -/
theorem wellTyped_quantify {q : Quantifier} {leaf : FieldPath → Predicate} {caseSensitive : Bool}
    {shape : Shape} {segments : List String} {steps : List Step} {kind : FieldKind}
    (h : shape.Leads (Shape.LooksUp caseSensitive) segments steps kind)
    (hleaf : ∀ scope names, scope.walk names = some kind.unwrap.2 →
      Predicate.WellTyped scope (leaf ⟨names⟩))
    {scope : FieldKind} {names : List String} (hscope : scope.walk names = some (.object shape)) :
    Predicate.WellTyped scope (quantify q leaf names steps) := by
  induction h generalizing scope names with
  | last hname htarget =>
    rw [FieldKind.unwrap_inCollections htarget] at hleaf
    exact wellTyped_quantify_cons (walk_lookup hscope hname) hleaf
  | onward hname _ ih =>
    exact wellTyped_quantify_cons (walk_lookup hscope hname) fun _ _ hinner => ih hleaf hinner

theorem Comparison.wellTyped_of_compile {options : CompileOptions} {shape : Shape} {c : Comparison}
    {p : Predicate} (hc : c.Balanced) (h : c.compile options shape = .ok p) :
    p.WellTyped (.object shape) := by
  obtain ⟨field, value, hfield, ⟨hop, hcase⟩, hvalue, rfl⟩ := compile_eq_ok_iff.mp h
  obtain ⟨depth, target, hleads, hscalar⟩ := Shape.resolveSegments_eq_ok_iff.mp hfield
  refine wellTyped_quantify hleads (fun scope names hwalk => ?_) (FieldKind.walk_nil _)
  rw [FieldKind.unwrap_inCollections (FieldKind.not_collection_of_scalar? hscalar)] at hwalk
  exact .compare hwalk hscalar (hop.allows hcase) (suits_of_coerceOperand hc hvalue)

/-- By induction on the condition, each comparison is well typed in the same scope. -/
theorem Condition.wellTyped_of_compile {options : CompileOptions} {shape : Shape} {n : Condition}
    {p : Predicate} (hn : ∀ c ∈ n.comparisons, c.Balanced) (h : n.compile options shape = .ok p) :
    p.WellTyped (.object shape) := by
  induction n generalizing p with
  | comparison c => exact c.wellTyped_of_compile (hn c (List.mem_singleton_self c)) h
  | and l r ihl ihr | or l r ihl ihr =>
    simp only [Condition.comparisons, List.mem_append] at hn
    rw [Condition.compile] at h
    obtain ⟨left, hl, h⟩ := bind_eq_ok_iff.mp h
    obtain ⟨right, hr, h⟩ := bind_eq_ok_iff.mp h
    cases h
    have hleft := ihl (fun c hc => hn c (.inl hc)) hl
    have hright := ihr (fun c hc => hn c (.inr hc)) hr
    constructor
    · exact hleft
    · exact hright
  | group n ih => exact ih hn h

/-- Every predicate that a text compiles to is well typed in the scope of its record. -/
theorem Predicate.wellTyped_of_ofText {configuration : Configuration} {shape : Shape}
    {text : String} {p : Predicate} (h : Predicate.ofText configuration shape text = .ok p) :
    p.WellTyped (.object shape) := by
  obtain ⟨n, hn, hcompile⟩ := Predicate.ofText_eq_ok_iff.mp h
  obtain ⟨us, _, hread⟩ := Condition.ofText_eq_ok_iff.mp hn
  obtain ⟨ts, _, _, _, hts, _⟩ := Condition.derives_of_ofTokens hread
  have hbalanced := hts.balanced (by simp [Phrase.comparisonsBefore])
  exact n.wellTyped_of_compile hbalanced hcompile

/-- Objects in a list of lists, with names in another case and no quantifier but the default one. -/
theorem Predicate.wellTyped_of_nested_lists :
    let element : Shape := .field "Name" .string .empty
    let shape : Shape := .field "Items" (.collection (.collection (.object element))) .empty
    let configuration : Configuration :=
      { settings := { caseSensitiveFields := false, quantifier := .all } }
    ∃ p, Predicate.ofText configuration shape "items.NAME ^^ [\"a\", null]" = .ok p ∧
      p.same (.quantified .all ⟨["Items"]⟩ (.quantified .all .element
        (.compare ⟨["Name"]⟩ .string .isIn (.list [.text "a", .null]) false))) = true ∧
      p.WellTyped (.object shape) := by
  intro element shape configuration
  have hsame : (Predicate.ofText configuration shape "items.NAME ^^ [\"a\", null]").toOption.any
      (fun p => p.same (.quantified .all ⟨["Items"]⟩ (.quantified .all .element
        (.compare ⟨["Name"]⟩ .string .isIn (.list [.text "a", .null]) false)))) = true := by
    rw [Predicate.ofText_standard configuration rfl]
    decide +kernel
  cases hp : Predicate.ofText configuration shape "items.NAME ^^ [\"a\", null]" with
  | error e => simp [hp, Except.toOption] at hsame
  | ok p =>
    refine ⟨p, rfl, ?_, wellTyped_of_ofText hp⟩
    simpa [hp, Except.toOption] using hsame

end RecordFilter
