import RecordFilter.Proofs.Leaves
import RecordFilter.Proofs.Paths

/-!
Looser ways to find fields. A condition that compiles goes on to compile to the same predicate if
letter case is ignored from now on, and if the shape is extended by further fields on any level:
every path that was resolved is resolved in the same way.
-/
namespace RecordFilter

section

variable {options options' : CompileOptions} {shape shape' : Shape} {p : Predicate}

/-- Compiling only depends on how the field of a comparison is resolved. -/
theorem Comparison.compile_of_resolve {c : Comparison} (h : c.compile options shape = .ok p)
    (hquantifier : options'.quantifier = options.quantifier)
    (hfield : ∀ field, shape.resolve options.caseSensitive c.field = .ok field →
      shape'.resolve options'.caseSensitive c.field = .ok field) :
    c.compile options' shape' = .ok p := by
  obtain ⟨field, value, hresolve, hrules, hvalue, rfl⟩ := compile_eq_ok_iff.mp h
  refine compile_eq_ok_iff.mpr ⟨field, value, hfield field hresolve, hrules, hvalue, ?_⟩
  rw [hquantifier]

/-- The shape and the letter case only matter for the fields that paths resolve to. -/
theorem Condition.compile_of_resolve {n : Condition} (h : n.compile options shape = .ok p)
    (hquantifier : options'.quantifier = options.quantifier)
    (hfield : ∀ path field, shape.resolve options.caseSensitive path = .ok field →
      shape'.resolve options'.caseSensitive path = .ok field) :
    n.compile options' shape' = .ok p := by
  obtain ⟨leaf, hleaf, rfl⟩ := compile_eq_ok_iff.mp h
  refine compile_eq_ok_iff.mpr ⟨leaf, fun c hc => ?_, rfl⟩
  exact Comparison.compile_of_resolve (hleaf c hc) hquantifier (hfield c.field)

end

/-! Letter case. -/

namespace Shape

variable {shape : Shape} {caseSensitive : Bool} {names : List String} {steps : List Step}
  {kind : FieldKind} {path : String} {field : ResolvedField}

theorem resolve_ignoringCase (h : shape.resolve true path = .ok field) :
    shape.resolve false path = .ok field := by
  obtain ⟨depth, target, hleads, hscalar⟩ := resolveSegments_eq_ok_iff.mp h
  refine resolveSegments_eq_ok_iff.mpr ⟨depth, target, ?_, hscalar⟩
  refine hleads.imp (fun _ => True) trivial (fun _ _ _ _ _ hname => ?_) fun _ _ _ _ _ _ _ => trivial
  exact lookup_ignoringCase_eq_some_iff.mpr (.inl (lookup_caseSensitive.symm.trans hname))

theorem dot_not_mem_of_same {name declared : String} (h : sameIgnoringCase declared name = true)
    (hname : '.' ∉ name.toList) : '.' ∉ declared.toList := by
  intro hmem
  have hlower := List.mem_map_of_mem (f := Char.toLower) hmem
  rw [sameIgnoringCase_iff.mp h] at hlower
  obtain ⟨c, hc, heq⟩ := List.mem_map.mp hlower
  rw [eq_of_toLower_eq rfl heq] at hc
  exact hname hc

/-- A path without dots in its names leads through declared names without dots. -/
theorem Leads.step_names_plain (h : shape.Leads (LooksUp caseSensitive) names steps kind)
    (hnames : ∀ name ∈ names, '.' ∉ name.toList) :
    ∀ declared ∈ steps.map Step.name, '.' ∉ declared.toList := by
  induction h with
  | last hname =>
    rw [List.forall_mem_singleton] at hnames
    exact List.forall_mem_singleton.mpr
      (dot_not_mem_of_same (sameIgnoringCase_of_lookup hname) hnames)
  | onward hname _ ih =>
    obtain ⟨hfirst, hrest⟩ := List.forall_mem_cons.mp hnames
    exact List.forall_mem_cons.mpr
      ⟨dot_not_mem_of_same (sameIgnoringCase_of_lookup hname) hfirst, ih hrest⟩

/-- The declared names lead to the same field, with no letter case to ignore. -/
theorem Leads.declared (h : shape.Leads (LooksUp caseSensitive) names steps kind) :
    shape.Leads (LooksUp true) (steps.map Step.name) steps kind := by
  induction h with
  | last hname htarget => exact .last (get?_of_lookup hname) htarget
  | onward hname _ ih => exact .onward (get?_of_lookup hname) ih

/-- The path that a field is resolved to is resolved to the same field. -/
theorem resolve_path (h : shape.resolve caseSensitive path = .ok field) :
    shape.resolve true field.path = .ok field := by
  obtain ⟨depth, target, hleads, hscalar⟩ := resolveSegments_eq_ok_iff.mp h
  have hplain := hleads.step_names_plain fun _ => pathSegments_plain
  have hsegments : pathSegments field.path = field.names :=
    pathSegments_intercalate hleads.declared.ne_nil hplain
  rw [resolve, hsegments]
  exact resolveSegments_eq_ok_iff.mpr ⟨depth, target, hleads.declared, hscalar⟩

end Shape

/-- What compiles with exact names compiles to the same predicate if letter case is ignored, also in
shapes with names that differ in case only. A path that resolves if letter case is ignored resolves
to the same field by exact names once it is written in the names of the shape. -/
theorem compile_ignoringCase_conservative (shape : Shape) :
    (∀ (n : Condition) (quantifier : Quantifier) (p : Predicate),
      n.compile ⟨true, quantifier⟩ shape = .ok p → n.compile ⟨false, quantifier⟩ shape = .ok p) ∧
    ∀ path span field, resolveField false shape path span = .ok field →
      ∀ span', resolveField true shape field.path span' = .ok field := by
  constructor
  · intro n quantifier p h
    exact Condition.compile_of_resolve h rfl fun _ _ => Shape.resolve_ignoringCase
  · intro path span field h span'
    exact resolveField_eq_ok_iff.mpr (Shape.resolve_path (resolveField_eq_ok_iff.mp h))

/-- Names that differ in case only, on two levels and with different kinds. -/
theorem compile_ignoringCase_conservative_of_similar_names :
    let shape : Shape := .field "Item" (.object (.field "PRICE" .string .empty))
      (.field "item" (.collection (.object (.field "Price" .boolean (.field "price" .number .empty))))
        .empty)
    let c : Comparison :=
      ⟨"item.price", ⟨0, 10⟩, .greaterThan, false, .single ⟨.number, "5", ⟨13, 14⟩⟩, ⟨0, 14⟩⟩
    ∃ p, (Condition.comparison c).compile ⟨true, .all⟩ shape = .ok p ∧
      (Condition.comparison c).compile ⟨false, .all⟩ shape = .ok p ∧
      ∀ span, resolveField true shape "Item.PRICE" span =
        .ok ⟨[⟨"Item", 0⟩, ⟨"PRICE", 0⟩], .string, []⟩ := by
  intro shape c
  let field : ResolvedField := ⟨[⟨"Item", 0⟩, ⟨"PRICE", 0⟩], .string, []⟩
  obtain ⟨hcompile, hresolve⟩ := compile_ignoringCase_conservative shape
  have hfield : ∀ span, resolveField true shape field.path span = .ok field :=
    hresolve "ITEM.price" ⟨0, 10⟩ field (by decide +kernel)
  have hpath : field.path = "Item.PRICE" := by decide +kernel
  rw [hpath] at hfield
  have hok : ((Condition.comparison c).compile ⟨true, .all⟩ shape).isOk = true := by
    decide +kernel
  obtain ⟨p, hp⟩ := exists_ok_of_isOk hok
  exact ⟨p, hp, hcompile _ .all p hp, hfield⟩

/-! Extensions. -/

/-- A kind with all that another one declares, on every level. Single values stay as they are. -/
inductive FieldKind.Extends : FieldKind → FieldKind → Prop
  | scalar {kind : FieldKind} : kind.scalar?.isSome = true → Extends kind kind
  | object {new old : Shape} :
    (∀ name kind, old.get? name = some (name, kind) → (new.get? name).isSome = true) →
    (∀ name kind kind', old.get? name = some (name, kind) → new.get? name = some (name, kind') →
      Extends kind' kind) →
    Extends (.object new) (.object old)
  | collection {new old : FieldKind} : Extends new old → Extends (.collection new) (.collection old)

def Shape.Extends (new old : Shape) : Prop := (FieldKind.object new).Extends (.object old)

namespace FieldKind.Extends

variable {new old : FieldKind}

theorem ne_collection (h : new.Extends old) (hold : ∀ element, old ≠ .collection element)
    (element : FieldKind) : new ≠ .collection element := by
  cases h with
  | scalar => exact hold element
  | object => exact nofun
  | @collection _ inner => exact absurd rfl (hold inner)

theorem eq_of_scalar (h : new.Extends old) (hold : old.scalar?.isSome = true) : new = old := by
  cases h with
  | scalar => rfl
  | object | collection => cases hold

theorem inCollections {depth : Nat} (h : new.Extends (old.inCollections depth)) :
    ∃ inner : FieldKind, new = inner.inCollections depth ∧ inner.Extends old := by
  induction depth generalizing new with
  | zero => exact ⟨new, rfl, h⟩
  | succ depth ih =>
    change new.Extends (.collection (old.inCollections depth)) at h
    cases h with
    | scalar hscalar => cases hscalar
    | collection helement =>
      obtain ⟨inner, rfl, hinner⟩ := ih helement
      exact ⟨inner, rfl, hinner⟩

end FieldKind.Extends

namespace Shape

variable {new old : Shape} {name declared : String} {kind : FieldKind}

theorem Extends.get? (h : new.Extends old) (hold : old.get? name = some (declared, kind)) :
    ∃ kind', new.get? name = some (declared, kind') ∧ kind'.Extends kind := by
  obtain rfl := name_of_get? hold
  cases h with
  | scalar hscalar => cases hscalar
  | object hpresent hkinds =>
    obtain ⟨⟨found, kind'⟩, hnew⟩ := Option.isSome_iff_exists.mp (hpresent _ _ hold)
    obtain rfl := name_of_get? hnew
    exact ⟨kind', hnew, hkinds _ _ _ hold hnew⟩

theorem extends_empty (new : Shape) : new.Extends .empty := .object nofun nofun

/-- Extensions can be checked field by field. -/
theorem extends_field {kind' : FieldKind} {rest : Shape}
    (hname : new.get? name = some (name, kind')) (hkind : kind'.Extends kind)
    (hrest : new.Extends rest) : new.Extends (.field name kind rest) := by
  refine .object (fun name' kind₁ hold => ?_) (fun name' kind₁ kind₂ hold hnew => ?_)
  · obtain ⟨rfl, rfl⟩ | hold := get?_field_cases hold
    · rw [hname]
      rfl
    · obtain ⟨_, hnew, _⟩ := hrest.get? hold
      rw [hnew]
      rfl
  · obtain ⟨rfl, rfl⟩ | hold := get?_field_cases hold
    · rw [hname] at hnew
      cases hnew
      exact hkind
    · obtain ⟨_, hnew', hkind'⟩ := hrest.get? hold
      rw [hnew'] at hnew
      cases hnew
      exact hkind'

/-- Names lead to the extended kinds of the fields that they led to, in the same steps. -/
theorem Leads.extends {names : List String} {steps : List Step}
    (h : old.Leads (LooksUp true) names steps kind) (hnew : new.Extends old) :
    ∃ kind', new.Leads (LooksUp true) names steps kind' ∧ kind'.Extends kind := by
  induction h generalizing new with
  | last hname htarget =>
    obtain ⟨kind', hname', hkind'⟩ := hnew.get? hname
    obtain ⟨target', rfl, htarget'⟩ := hkind'.inCollections
    exact ⟨_, .last hname' (htarget'.ne_collection htarget), hkind'⟩
  | onward hname _ ih =>
    obtain ⟨kind', hname', hkind'⟩ := hnew.get? hname
    obtain ⟨object', rfl, hobject'⟩ := hkind'.inCollections
    cases hobject' with
    | scalar hscalar => cases hscalar
    | object hpresent hkinds =>
      obtain ⟨kind', hrest, hkind'⟩ := ih (.object hpresent hkinds)
      exact ⟨kind', .onward hname' hrest, hkind'⟩

/-- A path that is resolved is resolved to the same field when more fields are declared. -/
theorem Extends.resolve {path : String} {field : ResolvedField} (h : new.Extends old)
    (hold : old.resolve true path = .ok field) : new.resolve true path = .ok field := by
  obtain ⟨depth, target, hleads, hscalar⟩ := resolveSegments_eq_ok_iff.mp hold
  obtain ⟨kind', hleads', hkind'⟩ := hleads.extends h
  obtain ⟨target', rfl, htarget'⟩ := hkind'.inCollections
  obtain rfl := htarget'.eq_of_scalar (by rw [hscalar]; rfl)
  exact resolveSegments_eq_ok_iff.mpr ⟨depth, target', hleads', hscalar⟩

end Shape

/-- A condition that compiles compiles to the same predicate after the shape is extended. -/
theorem compile_of_extends {new old : Shape} (h : new.Extends old) (quantifier : Quantifier)
    {n : Condition} {p : Predicate} (hold : n.compile ⟨true, quantifier⟩ old = .ok p) :
    n.compile ⟨true, quantifier⟩ new = .ok p :=
  Condition.compile_of_resolve hold rfl fun _ _ => h.resolve

/-- Fields that are added to the record and to the objects in a list of lists. -/
theorem compile_of_extends_in_nested_lists :
    let price : Shape := .field "Price" .number .empty
    let old : Shape := .field "Items" (.collection (.collection (.object price))) .empty
    let new : Shape := .field "Id" .string
      (.field "Items" (.collection (.collection (.object (.field "Code" .string price)))) .empty)
    let c : Comparison :=
      ⟨"Items.Price", ⟨0, 11⟩, .greaterThan, false, .single ⟨.number, "5", ⟨14, 15⟩⟩, ⟨0, 15⟩⟩
    new.Extends old ∧ ∃ p, (Condition.comparison c).compile ⟨true, .all⟩ old = .ok p ∧
      (Condition.comparison c).compile ⟨true, .all⟩ new = .ok p := by
  intro price old new c
  have hprice : (Shape.field "Code" .string price).Extends price :=
    Shape.extends_field rfl (.scalar rfl) (Shape.extends_empty _)
  have hnew : new.Extends old :=
    Shape.extends_field rfl (.collection (.collection hprice)) (Shape.extends_empty _)
  have hok : ((Condition.comparison c).compile ⟨true, .all⟩ old).isOk = true := by decide +kernel
  obtain ⟨p, hp⟩ := exists_ok_of_isOk hok
  exact ⟨hnew, p, hp, compile_of_extends hnew .all hp⟩

end RecordFilter
