import RecordFilter.Proofs.Failures

/-!
Compiling leaf by leaf. A condition compiles just if each of its comparisons does, and what it
compiles to is the condition without its groups, with every comparison replaced by what this
comparison alone compiles to: one comparison of values inside a quantifier for each level of
collections on the way to the field.
-/
namespace RecordFilter

/-- The condition without groups, with predicates in place of its comparisons. -/
def Condition.withLeaves (leaf : Comparison → Predicate) : Condition → Predicate
  | .comparison c => leaf c
  | .and l r => .and (l.withLeaves leaf) (r.withLeaves leaf)
  | .or l r => .or (l.withLeaves leaf) (r.withLeaves leaf)
  | .group n => n.withLeaves leaf

def collectionLevels : List Step → Nat
  | [] => 0
  | step :: rest => step.depth + collectionLevels rest

inductive Quantifier.Wraps (q : Quantifier) (inner : Predicate) : Nat → Predicate → Prop
  | none : Wraps q inner 0 inner
  | level {levels : Nat} {p : Predicate} (collection : FieldPath) :
    Wraps q inner levels p → Wraps q inner (levels + 1) (.quantified q collection p)

/-! Comparisons. -/

namespace Quantifier.Wraps

variable {q : Quantifier} {inner p : Predicate} {levels : Nat}

/-- Quantifiers add no test to what they are around. -/
theorem compareCount (h : q.Wraps inner levels p) : p.compareCount = inner.compareCount := by
  induction h with
  | none => rfl
  | level collection _ ih => exact ih

theorem elements (h : q.Wraps inner levels p) (more : Nat) :
    q.Wraps inner (levels + more) (Nat.repeat (.quantified q .element) more p) := by
  induction more with
  | zero => exact h
  | succ more ih => exact .level .element ih

end Quantifier.Wraps

/-- Each level of collections of each step gets a quantifier. -/
theorem wraps_quantify (q : Quantifier) (leaf : FieldPath → Predicate) (names : List String)
    (steps : List Step) :
    ∃ path, q.Wraps (leaf path) (collectionLevels steps) (quantify q leaf names steps) := by
  induction steps generalizing names with
  | nil => exact ⟨⟨names⟩, .none⟩
  | cons step rest ih =>
    rw [quantify, collectionLevels]
    cases step.depth with
    | zero =>
      rw [Nat.zero_add]
      exact ih (names ++ [step.name])
    | succ levels =>
      obtain ⟨path, hrest⟩ := ih []
      refine ⟨path, ?_⟩
      rw [Nat.add_comm, ← Nat.add_assoc]
      exact .level _ (hrest.elements levels)

example (leaf : FieldPath → Predicate) :
    quantify .all leaf [] [⟨"Pages", 0⟩, ⟨"Cells", 2⟩, ⟨"Text", 0⟩] =
      .quantified .all ⟨["Pages", "Cells"]⟩ (.quantified .all .element (leaf ⟨["Text"]⟩)) := rfl

/-- A comparison is compiled to one comparison of values, inside the quantifiers of its path. -/
theorem Comparison.wraps_of_compile {options : CompileOptions} {shape : Shape} {c : Comparison}
    {p : Predicate} (h : c.compile options shape = .ok p) :
    ∃ field value path, shape.resolve options.caseSensitive c.field = .ok field ∧
      coerceOperand c field = .ok value ∧
      options.quantifier.Wraps (.compare path field.kind c.op value c.ignoreCase)
        (collectionLevels field.steps) p := by
  obtain ⟨field, value, hfield, _, hvalue, rfl⟩ := compile_eq_ok_iff.mp h
  obtain ⟨path, hwraps⟩ := wraps_quantify options.quantifier
    (fun path => .compare path field.kind c.op value c.ignoreCase) [] field.steps
  exact ⟨field, value, path, hfield, hvalue, hwraps⟩

/-! Conditions. -/

namespace Condition

variable {options : CompileOptions} {shape : Shape} {n : Condition} {leaf : Comparison → Predicate}

theorem compile_withLeaves (h : ∀ c ∈ n.comparisons, c.compile options shape = .ok (leaf c)) :
    n.compile options shape = .ok (n.withLeaves leaf) := by
  induction n with
  | comparison c => exact h c (List.mem_singleton_self c)
  | and l r ihl ihr | or l r ihl ihr =>
    obtain ⟨hl, hr⟩ := List.forall_mem_append.mp h
    rw [compile, ihl hl, ihr hr]
    rfl
  | group n ih => exact ih h

/-- A condition compiles to its own tree of the predicates of its comparisons. -/
theorem compile_eq_ok_iff {p : Predicate} : n.compile options shape = .ok p ↔
    ∃ leaf, (∀ c ∈ n.comparisons, c.compile options shape = .ok (leaf c)) ∧
      p = n.withLeaves leaf := by
  constructor
  · intro h
    have hall : ∀ c : Comparison, ∃ q, c ∈ n.comparisons → c.compile options shape = .ok q := by
      intro c
      by_cases hc : c ∈ n.comparisons
      · obtain ⟨q, hq⟩ := compile_comparisons h c hc
        exact ⟨q, fun _ => hq⟩
      · exact ⟨p, fun hmem => absurd hmem hc⟩
    obtain ⟨leaf, hleaf⟩ := Classical.skolem.mp hall
    have hwhole := compile_withLeaves hleaf
    rw [h, Except.ok.injEq] at hwhole
    exact ⟨leaf, hleaf, hwhole⟩
  · rintro ⟨leaf, hleaf, rfl⟩
    exact compile_withLeaves hleaf

theorem compareCount_withLeaves (h : ∀ c ∈ n.comparisons, (leaf c).compareCount = 1) :
    (n.withLeaves leaf).compareCount = n.comparisonCount := by
  induction n with
  | comparison c => exact h c (List.mem_singleton_self c)
  | and l r ihl ihr | or l r ihl ihr =>
    obtain ⟨hl, hr⟩ := List.forall_mem_append.mp h
    rw [withLeaves, Predicate.compareCount, ihl hl, ihr hr]
    rfl
  | group n ih => exact ih h

/-- The comparison that fails first is found by trying them in turn. -/
theorem FailsAt.find? {c : Comparison} {e : CompileError} (h : n.FailsAt options shape c e) :
    n.comparisons.find? (fun c => !(c.compile options shape).isOk) = some c := by
  obtain ⟨before, after, heq, hbefore, hc⟩ := h
  refine List.find?_eq_some_iff_append.mpr ⟨?_, before, after, heq, fun b hb => ?_⟩
  · rw [hc]
    rfl
  · obtain ⟨p, hp⟩ := hbefore b hb
    rw [hp]
    rfl

theorem compile_eq_error_iff {e : CompileError} :
    n.compile options shape = .error e ↔ ∃ c, n.FailsAt options shape c e := by
  constructor
  · exact failsAt_of_compile
  · rintro ⟨c, hfails⟩
    have ⟨before, after, heq, _, hc⟩ := hfails
    cases hn : n.compile options shape with
    | ok p =>
      obtain ⟨q, hq⟩ := compile_comparisons hn c (by simp [heq])
      rw [hc] at hq
      cases hq
    | error e' =>
      obtain ⟨c', hfails'⟩ := failsAt_of_compile hn
      have ⟨_, _, _, _, hc'⟩ := hfails'
      obtain rfl := Option.some.inj (hfails.find?.symm.trans hfails'.find?)
      exact hc'.symm.trans hc

/-- Compiling a condition drops its groups and puts in place of each comparison the predicate that
this comparison compiles to, which is one comparison of values inside a quantifier for each level of
collections on its path. If a comparison cannot be compiled, the first such one is reported. -/
theorem compile_leaf_by_leaf (options : CompileOptions) (shape : Shape) (n : Condition) :
    ((∃ p, n.compile options shape = .ok p) ↔
      ∀ c ∈ n.comparisons, ∃ p, c.compile options shape = .ok p) ∧
    (∀ p, n.compile options shape = .ok p →
      (∃ leaf, (∀ c ∈ n.comparisons, c.compile options shape = .ok (leaf c) ∧
          ∃ field value path, shape.resolve options.caseSensitive c.field = .ok field ∧
            coerceOperand c field = .ok value ∧
            options.quantifier.Wraps (.compare path field.kind c.op value c.ignoreCase)
              (collectionLevels field.steps) (leaf c)) ∧
        p = n.withLeaves leaf) ∧
      p.compareCount = n.comparisonCount) ∧
    ∀ e, n.compile options shape = .error e ↔ ∃ c, n.FailsAt options shape c e := by
  refine ⟨⟨?each, ?whole⟩, ?leaves, fun e => compile_eq_error_iff⟩
  case each =>
    rintro ⟨p, h⟩
    exact compile_comparisons h
  case whole =>
    intro hall
    cases hn : n.compile options shape with
    | ok p => exact ⟨p, rfl⟩
    | error e =>
      obtain ⟨c, before, after, heq, _, hc⟩ := failsAt_of_compile hn
      obtain ⟨p, hp⟩ := hall c (by simp [heq])
      rw [hc] at hp
      cases hp
  case leaves =>
    intro p h
    obtain ⟨leaf, hleaf, rfl⟩ := compile_eq_ok_iff.mp h
    have hwraps := fun c hc => Comparison.wraps_of_compile (hleaf c hc)
    refine ⟨⟨leaf, fun c hc => ⟨hleaf c hc, hwraps c hc⟩, rfl⟩, ?_⟩
    apply compareCount_withLeaves
    intro c hc
    obtain ⟨field, value, path, _, _, hwrap⟩ := hwraps c hc
    rw [hwrap.compareCount, Predicate.compareCount]

/-- A comparison in groups, on a list of lists. -/
theorem compile_leaf_by_leaf_in_groups :
    let shape : Shape := .field "Cells" (.collection (.collection .number)) .empty
    let five : Comparison :=
      ⟨"Cells", ⟨1, 6⟩, .equals, false, .single ⟨.number, "5", ⟨10, 11⟩⟩, ⟨1, 11⟩⟩
    let n : Condition := .group (.and (.comparison five) (.group (.comparison five)))
    ∃ leaf p, five.compile {} shape = .ok leaf ∧ n.compile {} shape = .ok p ∧
      p = .and leaf leaf ∧ p.compareCount = 2 ∧
      ∃ path value, Quantifier.any.Wraps (.compare path .number .equals value false) 2 leaf := by
  intro shape five n
  have hok : (five.compile {} shape).isOk = true := by decide +kernel
  have hfield : shape.resolve true "Cells" = .ok ⟨[⟨"Cells", 2⟩], .number, []⟩ := by decide +kernel
  obtain ⟨hwhole, hleaves, _⟩ := compile_leaf_by_leaf {} shape n
  obtain ⟨q, hfive⟩ : ∃ q, five.compile {} shape = .ok q := by
    cases hfive : five.compile {} shape with
    | error e => simp [hfive, Except.isOk, Except.toBool] at hok
    | ok q => exact ⟨q, rfl⟩
  have heach : ∀ c ∈ n.comparisons, c = five := by simp [n, comparisons]
  obtain ⟨p, hp⟩ := hwhole.mpr fun c hc => ⟨q, heach c hc ▸ hfive⟩
  obtain ⟨⟨leaf, hleaf, rfl⟩, hcount⟩ := hleaves p hp
  obtain ⟨hcompiled, field, value, path, hresolve, _, hwraps⟩ :=
    hleaf five (by simp [n, comparisons])
  obtain rfl := Except.ok.inj (hfield.symm.trans hresolve)
  exact ⟨leaf five, n.withLeaves leaf, hcompiled, hp, rfl, hcount, path, value, hwraps⟩

end Condition

end RecordFilter
