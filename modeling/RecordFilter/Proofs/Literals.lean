import RecordFilter.Proofs.Failures
import RecordFilter.Proofs.RoundTrip

/-!
What the scan takes for a number or a truth value is one. The compiler reads these literals once
more, as values of the field, and never finds them malformed: a literal that it refuses for its
text is a string or a date.
-/
namespace RecordFilter

/-- What the scan has seen to before a literal is compiled. -/
def TokenKind.Checked : TokenKind → Prop
  | .literal .number text =>
    (Decimal.read text.toList).isSome = true ∧ ∀ c ∈ text.toList, isBlank c = false
  | .literal .boolean text => text = "true" ∨ text = "false"
  | _ => True

/-- What starts with a digit or a sign and is read at all is a decimal without blanks or a date. -/
theorem checked_number {c : Char} {rest : List Char} {kind : TokenKind}
    (hstart : startsNumber c rest = true)
    (hkind : numberKind? (c :: rest.takeWhile isNumberChar) = .ok kind) : kind.Checked := by
  have hchars : ∀ d ∈ c :: rest.takeWhile isNumberChar, isBlank d = false := by
    refine List.forall_mem_cons.mpr ⟨not_blank_of_startsNumber hstart, fun d hd => ?_⟩
    have hnumber : isNumberChar d = true := List.all_eq_true.mp List.all_takeWhile d hd
    cases hblank : isBlank d with
    | false => rfl
    | true =>
      rw [not_numberChar_of_blank hblank] at hnumber
      cases hnumber
  obtain ⟨hsome, rfl⟩ | ⟨_, rfl⟩ := numberKind?_cases hkind
  · refine ⟨by simpa using hsome, fun d hd => hchars d ?_⟩
    rw [String.toList_ofList] at hd
    unfold withoutPlus at hd
    split at hd
    · next heq => exact heq ▸ List.mem_cons_of_mem _ hd
    · exact hd
  · trivial

/-- The only words that are literals are the two boolean ones and the one for null. -/
theorem checked_word {text : List Char} {kind : TokenKind} (h : wordKind? text = .ok kind) :
    kind.Checked := by
  obtain rfl | rfl | rfl := wordKind?_cases h
  · simp only [wordKind?] at h
    simp only [TokenKind.Checked]
    grind
  · trivial
  · trivial

theorem Begins.checked {v : Vocabulary} {c : Char} {rest : List Char} {kind : TokenKind} {n : Nat}
    (h : Begins v c rest kind n) : kind.Checked := by
  cases h with
  | comparison | logical | string => trivial
  | punctuation hpunct =>
    unfold punctuation? at hpunct
    split at hpunct <;> cases hpunct <;> trivial
  | number hstart hkind => exact checked_number hstart hkind
  | word _ _ hkind => exact checked_word hkind

/-! The literals of a condition. -/

def Condition.literals (n : Condition) : List Literal :=
  n.comparisons.flatMap fun c => c.operand.literals

theorem Derives.token_mem {layer : Layer} {ts : List Token} {n : Condition}
    (h : Derives (.whole layer) ts n) : ∀ l ∈ n.literals, l.token ∈ ts := by
  intro l hl
  obtain ⟨c, hc, hl⟩ := List.mem_flatMap.mp hl
  obtain hbefore | ⟨b, os, s, hoperand, _, htokens⟩ := h.comparison_mem hc
  · cases hbefore
  · have hmem := hoperand.token_mem l hl
    exact htokens.mem (List.mem_cons_of_mem _ (List.mem_cons_of_mem _ hmem))

theorem Condition.checked_of_ofText {v : Vocabulary} {text : String} {n : Condition}
    (h : Condition.ofText v text = .ok n) : ∀ l ∈ n.literals, l.tokenKind.Checked := by
  intro l hl
  obtain ⟨us, hus, hread⟩ := ofText_eq_ok_iff.mp h
  obtain ⟨ts, rest, rfl, _, hts, _⟩ := derives_of_ofTokens hread
  have hmem : l.token ∈ ts ++ rest := List.mem_append_left rest (hts.token_mem l hl)
  exact forall_mem_tokens trivial (fun _ => Begins.checked) hus l.token hmem

/-- No two tokens stand in one place: none is empty, and each begins after the one before. -/
theorem Tiles.eq_of_span_eq {v : Vocabulary} {text : List Char} {low high : Nat} {ts : List Token}
    (h : Tiles v text low ts high) :
    ∀ t ∈ ts, ∀ u ∈ ts, t.span = u.span → t = u := by
  induction h with
  | gap => nofun
  | @token low high t ts gap piece hgap hblank hpiece hne hkind hts ih =>
    have hlater : ∀ u ∈ ts, t.span ≠ u.span := by
      intro u hu heq
      obtain ⟨hstart, _⟩ := hts.covers_of_mem hu
      obtain ⟨before, after, _, hspan⟩ := hpiece
      have hlength : byteSize piece ≠ 0 := fun hzero => hne (byteSize_eq_zero.mp hzero)
      rw [← heq, hspan, byteSize_append] at hstart
      simp only at hstart
      omega
    intro u hu w hw heq
    obtain rfl | hu' := List.mem_cons.mp hu
    · obtain rfl | hw' := List.mem_cons.mp hw
      · rfl
      · exact absurd heq (hlater w hw')
    · obtain rfl | hw' := List.mem_cons.mp hw
      · exact absurd heq.symm (hlater u hu')
      · exact ih u hu' w hw' heq

/-! The compiler reads them once more. -/

theorem trimBlanks_eq_self {cs : List Char} (h : ∀ c ∈ cs, isBlank c = false) :
    trimBlanks cs = cs := by
  have hkeep : ∀ ds : List Char, (∀ d ∈ ds, isBlank d = false) → ds.dropWhile isBlank = ds := by
    intro ds hds
    cases ds with
    | nil => rfl
    | cons d ds => exact List.dropWhile_cons_of_neg (by simp [hds d List.mem_cons_self])
  rw [trimBlanks, hkeep cs h, hkeep cs.reverse (by simpa using h), List.reverse_reverse]

section

variable {l : Literal} (hl : l.tokenKind.Checked)

include hl

/-- A number that the scan let through is a decimal, so compiling it cannot fail. -/
theorem coerce_number (hkind : l.kind = .number) :
    ∃ d, Decimal.read l.text.toList = some d ∧
      ∀ c field, field.kind = .number → coerce c field l = .ok (.number d) := by
  obtain ⟨kind, text, span⟩ := l
  obtain rfl : kind = .number := hkind
  obtain ⟨hsome, hblanks⟩ := hl
  obtain ⟨d, hd⟩ := Option.isSome_iff_exists.mp hsome
  refine ⟨d, hd, fun c field hfield => ?_⟩
  simp only [coerce, hfield, trimBlanks_eq_self hblanks, hd, Option.map_some]

/-- A boolean that the scan let through is one of two words, so compiling it cannot fail. -/
theorem coerce_boolean (hkind : l.kind = .boolean) :
    ∃ b : Bool, l.text = (if b then "true" else "false") ∧
      ∀ c field, field.kind = .boolean → coerce c field l = .ok (.boolean b) := by
  obtain ⟨kind, text, span⟩ := l
  obtain rfl : kind = .boolean := hkind
  obtain rfl | rfl := hl
  · refine ⟨true, rfl, fun c field hfield => ?_⟩
    simp [coerce, hfield]
  · refine ⟨false, rfl, fun c field hfield => ?_⟩
    simp [coerce, hfield]

/-- Only strings and dates are checked again when they are compiled. -/
theorem kind_of_invalidLiteral {c : Comparison} {field : ResolvedField} {path literal : String}
    {expected : ValueKind} {demand : Demand} {span : Span}
    (h : coerce c field l = .error (.invalidLiteral path literal expected demand span)) :
    l.text = literal ∧ l.span = span ∧ (l.kind = .string ∨ l.kind = .date) := by
  obtain ⟨kind, text, place⟩ := l
  obtain ⟨steps, fieldKind, variants⟩ := field
  cases kind with
  | string | date =>
    cases fieldKind <;> simp only [coerce, reduceCtorEq, Except.error.injEq] at h
    all_goals
      split at h
      · cases h
      · cases h
        simp
  | number =>
    obtain ⟨d, _, hcoerce⟩ := coerce_number hl rfl
    cases fieldKind with
    | number => simp [hcoerce] at h
    | string | boolean | date | enumeration => simp [coerce] at h
  | boolean =>
    obtain ⟨b, _, hcoerce⟩ := coerce_boolean hl rfl
    cases fieldKind with
    | boolean => simp [hcoerce] at h
    | string | number | date | enumeration => simp [coerce] at h
  | null => simp [coerce] at h

end

/-- A comparison that fails for the text of a literal fails where that literal is coerced. -/
theorem coerce_of_compile {c : Comparison} {options : CompileOptions} {shape : Shape}
    {path literal : String} {expected : ValueKind} {demand : Demand} {span : Span}
    (h : c.compile options shape = .error (.invalidLiteral path literal expected demand span)) :
    ∃ field, ∃ l ∈ c.operand.literals,
      coerce c field l = .error (.invalidLiteral path literal expected demand span) := by
  obtain hfield | ⟨field, _, hop | ⟨_, hoperand⟩⟩ := Comparison.compile_eq_error_iff.mp h
  · obtain ⟨_, heq⟩ | ⟨_, _, heq⟩ := resolveField_eq_error_iff.mp hfield
    · cases heq
    · cases heq
  · obtain ⟨_, heq⟩ | ⟨_, _, heq⟩ := checkOperator_eq_error_iff.mp hop
    · cases heq
    · cases heq
  · obtain ⟨_, heq⟩ | ⟨_, _, l, _, hliterals, _, hl⟩ := coerceOperand_eq_error_iff.mp hoperand
    · cases heq
    · exact ⟨field, l, by simp [hliterals], coerce_eq_error_iff.mpr hl⟩

theorem compile_of_ofText {configuration : Configuration} {shape : Shape} {text : String}
    {e : CompileError} (h : Predicate.ofText configuration shape text = .error (.compile e)) :
    ∃ n, Condition.ofText configuration.vocabulary text = .ok n ∧
      n.compile configuration.settings.compileOptions shape = .error e := by
  rw [Predicate.ofText] at h
  obtain hcondition | ⟨n, hn, hcompile⟩ := bind_eq_error_iff.mp h
  · rw [Condition.ofText] at hcondition
    obtain hscan | ⟨_, _, hgrammar⟩ := bind_eq_error_iff.mp hcondition
    · obtain ⟨_, _, heq⟩ := mapError_eq_error_iff.mp hscan
      cases heq
    · obtain ⟨_, _, heq⟩ := mapError_eq_error_iff.mp hgrammar
      cases heq
  · obtain ⟨e', he', heq⟩ := mapError_eq_error_iff.mp hcompile
    cases heq
    exact ⟨n, hn, he'⟩

/-- The compiler finds no number and no truth value malformed that the scan has accepted. A literal
that it refuses for its text is the only one of the condition at the place of the error, and it is a
string or a date. Every number of a condition is coerced to its decimal on every number field, and
every truth value to what it spells on every boolean field. -/
theorem Predicate.ofText_accepts_checked_literals (configuration : Configuration) :
    (∀ shape text path literal expected demand span,
      Predicate.ofText configuration shape text =
        .error (.compile (.invalidLiteral path literal expected demand span)) →
      ∃ n l, Condition.ofText configuration.vocabulary text = .ok n ∧ l ∈ n.literals ∧
        l.span = span ∧ (∀ m ∈ n.literals, m.span = span → m = l) ∧
        l.text = literal ∧ (l.kind = .string ∨ l.kind = .date)) ∧
    ∀ text n, Condition.ofText configuration.vocabulary text = .ok n → ∀ l ∈ n.literals,
      (l.kind = .number → ∃ d, Decimal.read l.text.toList = some d ∧
        ∀ c field, field.kind = .number → coerce c field l = .ok (.number d)) ∧
      (l.kind = .boolean → ∃ b : Bool, l.text = (if b then "true" else "false") ∧
        ∀ c field, field.kind = .boolean → coerce c field l = .ok (.boolean b)) := by
  constructor
  · intro shape text path literal expected demand span h
    obtain ⟨n, hn, he⟩ := compile_of_ofText h
    obtain ⟨c, before, after, hcomparisons, _, hc⟩ := Condition.failsAt_of_compile he
    obtain ⟨field, l, hl, hfailed⟩ := coerce_of_compile hc
    have hmem : l ∈ n.literals :=
      List.mem_flatMap.mpr ⟨c, by simp [hcomparisons], hl⟩
    have hchecked := Condition.checked_of_ofText hn
    obtain ⟨hliteral, hspan, hkind⟩ := kind_of_invalidLiteral (hchecked l hmem) hfailed
    obtain ⟨ts, _, _, htiles, hderives⟩ := Condition.tiles_of_ofText configuration.vocabulary hn
    refine ⟨n, l, hn, hmem, hspan, fun m hm hsame => ?_, hliteral, hkind⟩
    have htokens := htiles.eq_of_span_eq _ (hderives.token_mem m hm) _ (hderives.token_mem l hmem)
      (hsame.trans hspan.symm)
    exact Literal.token_injective htokens
  · intro text n hn l hl
    have hchecked := Condition.checked_of_ofText hn l hl
    exact ⟨coerce_number hchecked, coerce_boolean hchecked⟩

/-- A number with a plus sign, a number that ends in a point, a number with an exponent, a truth
value, and a date that is no day. -/
theorem Predicate.ofText_accepts_signed_numbers :
    let shape : Shape := .field "B" .boolean (.field "D" .date (.field "N" .number .empty))
    let text := "N ^^ [+5, 3., -1e2] && B == true && D == 2022-13-45"
    let e : CompileError := .invalidLiteral "D" "2022-13-45" .date .temporal ⟨41, 51⟩
    Configuration.ofSettings? {} = .ok {} ∧ Predicate.ofText {} shape text = .error (.compile e) ∧
    ∃ n, Condition.ofText .standard text = .ok n ∧
      n.literals.map (fun l => (l.kind, l.text)) = [(.number, "5"), (.number, "3."),
        (.number, "-1e2"), (.boolean, "true"), (.date, "2022-13-45")] ∧
      (∃ l ∈ n.literals, l.span = ⟨41, 51⟩ ∧ (l.kind = .string ∨ l.kind = .date)) ∧
      ∀ l ∈ n.literals, l.kind = .number → ∃ d, Decimal.read l.text.toList = some d := by
  intro shape text e
  have hfails : (match Predicate.ofText {} shape text with
      | .error (.compile e') => decide (e' = e)
      | _ => false) = true := by
    rw [ofText_standard {} rfl]
    decide +kernel
  have hf : Predicate.ofText {} shape text = .error (.compile e) := by
    split at hfails
    · next heq => rw [heq, of_decide_eq_true hfails]
    · cases hfails
  obtain ⟨hinvalid, hread⟩ := ofText_accepts_checked_literals {}
  obtain ⟨n, l, hn, hl, hspan, _, _, hkind⟩ := hinvalid _ _ _ _ _ _ _ hf
  obtain ⟨n', hn', hliterals⟩ := Condition.exists_ofText_eq .standard text
    (fun n => n.literals.map fun l => (l.kind, l.text)) [(.number, "5"), (.number, "3."),
      (.number, "-1e2"), (.boolean, "true"), (.date, "2022-13-45")] (by decide +kernel)
  obtain rfl : n = n' := Except.ok.inj (hn.symm.trans hn')
  refine ⟨rfl, hf, n, hn, hliterals, ⟨l, hl, hspan, hkind⟩, fun m hm hnumber => ?_⟩
  obtain ⟨d, hd, _⟩ := (hread _ _ hn m hm).1 hnumber
  exact ⟨d, hd⟩

end RecordFilter
