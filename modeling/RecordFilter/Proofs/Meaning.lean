import Mathlib.Data.List.Basic
import RecordFilter.Proofs.Typing

/-!
What filters mean. A predicate is a question about a record: inside a quantifier its paths start at
an element of the collection. A condition asks the same question without quantifiers: each of its
comparisons is about all the single values that its path reaches, with all collections on the way
flattened. Compiling a condition keeps its meaning.
-/
namespace RecordFilter

inductive Datum (α : Type) where
  | scalar (value : α)
  | object (members : List (String × Datum α))
  | collection (elements : List (Datum α))

def Quantifier.Over {β : Type} (q : Quantifier) (items : List β) (p : β → Prop) : Prop :=
  match q with
  | .any => ∃ x ∈ items, p x
  | .all => ∀ x ∈ items, p x

/-- What a comparison asks about one value: the kind of the field, the operator, what the field is
compared with, and whether case is ignored. -/
abbrev ScalarTest (α : Type) := ValueKind → CompareOp → Value → Bool → α → Prop

namespace Quantifier

variable {β γ : Type} (q : Quantifier)

@[simp] theorem over_singleton (x : β) (p : β → Prop) : q.Over [x] p ↔ p x := by
  cases q <;> simp [Over]

theorem over_congr {items : List β} {p p' : β → Prop} (h : ∀ x ∈ items, p x ↔ p' x) :
    q.Over items p ↔ q.Over items p' := by
  cases q with
  | any => exact exists_congr fun x => and_congr_right (h x)
  | all => exact forall₂_congr h

/-- Items of items are asked about as the items of one list. -/
theorem over_flatMap (items : List β) (f : β → List γ) (p : γ → Prop) :
    q.Over (items.flatMap f) p ↔ q.Over items fun x => q.Over (f x) p := by
  cases q with
  | any =>
    constructor
    · rintro ⟨y, hy, hp⟩
      obtain ⟨x, hx, hxy⟩ := List.mem_flatMap.mp hy
      exact ⟨x, hx, y, hxy, hp⟩
    · rintro ⟨x, hx, y, hxy, hp⟩
      exact ⟨y, List.mem_flatMap.mpr ⟨x, hx, hxy⟩, hp⟩
  | all =>
    constructor
    · intro h x hx y hxy
      exact h y (List.mem_flatMap.mpr ⟨x, hx, hxy⟩)
    · intro h y hy
      obtain ⟨x, hx, hxy⟩ := List.mem_flatMap.mp hy
      exact h x hx y hxy

end Quantifier

namespace Datum

variable {α : Type}

def scalar? : Datum α → Option α
  | .scalar value => some value
  | _ => none

def member? : Datum α → String → Option (Datum α)
  | .object members, name => members.lookup name
  | _, _ => none

/-- What a path leads to. Each segment is the name of a member; collections are not entered. -/
def at? : Datum α → List String → Option (Datum α)
  | d, [] => some d
  | d, name :: rest => (d.member? name).bind fun inner => inner.at? rest

@[simp] theorem at?_nil (d : Datum α) : d.at? [] = some d := rfl

theorem at?_append (d : Datum α) (path more : List String) :
    d.at? (path ++ more) = (d.at? path).bind fun inner => inner.at? more := by
  induction path generalizing d with
  | nil => rfl
  | cons name rest ih =>
    rw [List.cons_append, at?, at?]
    cases d.member? name with
    | none => rfl
    | some inner => exact ih inner

mutual

/-- All that is left of a datum when its collections are flattened, on every level. -/
def leaves : Datum α → List (Datum α)
  | .collection elements => leavesOf elements
  | d => [d]

def leavesOf : List (Datum α) → List (Datum α)
  | [] => []
  | d :: ds => d.leaves ++ leavesOf ds

end

theorem leavesOf_eq_flatMap (ds : List (Datum α)) : leavesOf ds = ds.flatMap leaves := by
  induction ds with
  | nil => rfl
  | cons d ds ih => rw [leavesOf, ih, List.flatMap_cons]

/-- The single values that a path reaches. Collections may lie anywhere on the way and at its end,
in any number of levels, and all of their elements are followed. -/
def reached : Datum α → List String → List α
  | d, [] => d.leaves.filterMap scalar?
  | d, name :: rest => d.leaves.flatMap fun leaf =>
    match leaf.member? name with
    | some inner => inner.reached rest
    | none => []

/-- Data in the form of a kind: each declared field of an object is there. A single value may be
anything. -/
inductive Conforms : FieldKind → Datum α → Prop
  | scalar {kind : FieldKind} (value : α) : kind.scalar?.isSome = true →
    Conforms kind (.scalar value)
  | object {fields : Shape} {members : List (String × Datum α)} :
    (∀ name kind, fields.get? name = some (name, kind) → (members.lookup name).isSome = true) →
    (∀ name kind d, fields.get? name = some (name, kind) → members.lookup name = some d →
      Conforms kind d) →
    Conforms (.object fields) (.object members)
  | collection {element : FieldKind} {elements : List (Datum α)} :
    (∀ d ∈ elements, Conforms element d) →
    Conforms (.collection element) (.collection elements)

end Datum

/-- A predicate about a record, or about an element of a collection of it. -/
def Predicate.Holds {α : Type} (test : ScalarTest α) : Predicate → Datum α → Prop
  | .compare field kind op value ignoreCase, d =>
    ∃ a, d.at? field.segments = some (.scalar a) ∧ test kind op value ignoreCase a
  | .and l r, d => l.Holds test d ∧ r.Holds test d
  | .or l r, d => l.Holds test d ∨ r.Holds test d
  | .quantified q collection inner, d =>
    ∃ elements, d.at? collection.segments = some (.collection elements) ∧
      q.Over elements (inner.Holds test)

/-- A comparison asks about the single values that its path, in the names of the shape, reaches. -/
def Comparison.Holds {α : Type} (options : CompileOptions) (shape : Shape) (test : ScalarTest α)
    (c : Comparison) (d : Datum α) : Prop :=
  ∃ field value, shape.resolve options.caseSensitive c.field = .ok field ∧
    coerceOperand c field = .ok value ∧
    options.quantifier.Over (d.reached field.names) (test field.kind c.op value c.ignoreCase)

def Condition.Holds {α : Type} (options : CompileOptions) (shape : Shape) (test : ScalarTest α) :
    Condition → Datum α → Prop
  | .comparison c, d => c.Holds options shape test d
  | .and l r, d => l.Holds options shape test d ∧ r.Holds options shape test d
  | .or l r, d => l.Holds options shape test d ∨ r.Holds options shape test d
  | .group n, d => n.Holds options shape test d

namespace Datum

variable {α : Type} {d : Datum α} {kind : FieldKind}

theorem Conforms.leaves_eq (h : d.Conforms kind) (hkind : ∀ element, kind ≠ .collection element) :
    d.leaves = [d] := by
  cases h with
  | scalar | object => rfl
  | @collection element => exact absurd rfl (hkind element)

section

variable {depth : Nat} {target : FieldKind} (htarget : ∀ element, target ≠ .collection element)

include htarget

/-- Flattening data of nested collections comes down to data of the kind inside them. -/
theorem Conforms.leaf (h : d.Conforms (target.inCollections depth)) :
    ∀ leaf ∈ d.leaves, leaf.Conforms target := by
  intro leaf hleaf
  induction depth generalizing d with
  | zero =>
    change d.Conforms target at h
    rw [h.leaves_eq htarget] at hleaf
    exact List.mem_singleton.mp hleaf ▸ h
  | succ depth ih =>
    change d.Conforms (.collection (target.inCollections depth)) at h
    cases h with
    | scalar _ hscalar => cases hscalar
    | collection helements =>
      rw [leaves, leavesOf_eq_flatMap] at hleaf
      obtain ⟨inner, hinner, hleaf⟩ := List.mem_flatMap.mp hleaf
      exact ih (helements inner hinner) hleaf

/-- A path goes on from each of the flattened elements by itself. -/
theorem Conforms.reached_eq (h : d.Conforms (target.inCollections depth)) (names : List String) :
    d.reached names = d.leaves.flatMap fun leaf => leaf.reached names := by
  have hsplit : ∀ f : Datum α → List α, d.leaves.flatMap f =
      d.leaves.flatMap fun leaf => leaf.leaves.flatMap f := by
    intro f
    refine List.flatMap_congr fun leaf hleaf => ?_
    rw [(h.leaf htarget leaf hleaf).leaves_eq htarget, List.flatMap_singleton]
  cases names with
  | nil => simpa only [reached, List.filterMap_eq_flatMap_toList] using hsplit _
  | cons name rest => exact hsplit _

end

theorem Conforms.exists_scalar (h : d.Conforms kind) (hkind : kind.scalar?.isSome = true) :
    ∃ a, d = .scalar a := by
  cases h with
  | scalar a => exact ⟨a, rfl⟩
  | object | collection => cases hkind

/-- A declared field is there and has the declared kind. -/
theorem Conforms.exists_member {fields : Shape} {name : String} {kind : FieldKind}
    (h : d.Conforms (.object fields)) (hfield : fields.get? name = some (name, kind)) :
    ∃ inner, d.member? name = some inner ∧ inner.Conforms kind := by
  cases h with
  | scalar _ hscalar => cases hscalar
  | object hpresent hconforms =>
    obtain ⟨inner, hinner⟩ := Option.isSome_iff_exists.mp (hpresent name kind hfield)
    exact ⟨inner, hinner, hconforms name kind inner hfield hinner⟩

theorem conforms_empty (members : List (String × Datum α)) :
    (object members).Conforms (.object .empty) :=
  .object nofun nofun

/-- Records can be made field by field. -/
theorem conforms_field {members : List (String × Datum α)} {name : String} {rest : Shape}
    (hmember : members.lookup name = some d) (hd : d.Conforms kind)
    (hrest : (object members).Conforms (.object rest)) :
    (object members).Conforms (.object (.field name kind rest)) := by
  cases hrest with
  | object hpresent hconforms =>
    refine .object (fun name' kind' h => ?_) (fun name' kind' inner h hinner => ?_)
    · obtain ⟨rfl, rfl⟩ | h := Shape.get?_field_cases h
      · simp [hmember]
      · exact hpresent name' kind' h
    · obtain ⟨rfl, rfl⟩ | h := Shape.get?_field_cases h
      · rw [hmember] at hinner
        cases hinner
        exact hd
      · exact hconforms name' kind' inner h hinner

end Datum

/-! Quantifiers. -/

section Quantified

variable {α : Type} {test : ScalarTest α} {q : Quantifier}

section

variable {depth : Nat} {target : FieldKind} (htarget : ∀ element, target ≠ .collection element)

include htarget

/-- Quantifiers over all levels of a collection ask about the flattened elements. -/
theorem holds_levels {d : Datum α} (h : d.Conforms (target.inCollections depth)) (p : Predicate) :
    (Nat.repeat (.quantified q .element) depth p).Holds test d ↔
      q.Over d.leaves (p.Holds test) := by
  induction depth generalizing d with
  | zero =>
    change d.Conforms target at h
    rw [h.leaves_eq htarget, q.over_singleton]
    rfl
  | succ depth ih =>
    change d.Conforms (.collection (target.inCollections depth)) at h
    cases h with
    | scalar _ hscalar => cases hscalar
    | @collection _ elements helements =>
      have hlevel : (Predicate.quantified q .element
          (Nat.repeat (.quantified q .element) depth p)).Holds test (.collection elements) ↔
          q.Over elements ((Nat.repeat (.quantified q .element) depth p).Holds test) := by
        simp [Predicate.Holds, FieldPath.element]
      rw [Datum.leaves, Datum.leavesOf_eq_flatMap, q.over_flatMap]
      exact hlevel.trans (q.over_congr fun inner hinner => ih (helements inner hinner))

/-- One step of a path asks about the flattened data that the step leads to, if the steps after it
ask the same wherever they start. -/
theorem holds_quantify_cons {leaf : FieldPath → Predicate} {names : List String}
    {declared : String} {rest : List Step} {scope d : Datum α} {ask : Datum α → Prop}
    (hat : scope.at? (names ++ [declared]) = some d) (hd : d.Conforms (target.inCollections depth))
    (hrest : ∀ scope' names', ∀ inner ∈ d.leaves, scope'.at? names' = some inner →
      ((quantify q leaf names' rest).Holds test scope' ↔ ask inner)) :
    (quantify q leaf names (⟨declared, depth⟩ :: rest)).Holds test scope ↔
      q.Over d.leaves ask := by
  cases depth with
  | zero =>
    change d.Conforms target at hd
    have hleaves := hd.leaves_eq htarget
    rw [hleaves, q.over_singleton]
    exact hrest scope (names ++ [declared]) d (by simp [hleaves]) hat
  | succ depth =>
    have hlevels : (quantify q leaf names (⟨declared, depth + 1⟩ :: rest)).Holds test scope ↔
        (Nat.repeat (.quantified q .element) (depth + 1) (quantify q leaf [] rest)).Holds test
          d := by
      simp only [quantify, Nat.repeat, Predicate.Holds, hat, FieldPath.element, Datum.at?_nil]
    exact hlevels.trans ((holds_levels htarget hd _).trans
      (q.over_congr fun inner hinner => hrest inner [] inner hinner rfl))

end

/-- The member that a name is found for. -/
theorem Datum.Conforms.exists_lookup {caseSensitive : Bool} {shape : Shape} {name declared : String}
    {kind : FieldKind} {d : Datum α} (hd : d.Conforms (.object shape))
    (h : shape.LooksUp caseSensitive name declared kind) :
    ∃ inner : Datum α, inner.Conforms kind ∧
      (∀ (scope : Datum α) names, scope.at? names = some d →
        scope.at? (names ++ [declared]) = some inner) ∧
      ∀ more, d.reached (declared :: more) = inner.reached more := by
  obtain ⟨inner, hmember, hinner⟩ := hd.exists_member (Shape.get?_of_lookup h)
  refine ⟨inner, hinner, fun scope names hat => ?_, fun more => ?_⟩
  · rw [Datum.at?_append, hat, Option.bind_some, Datum.at?, hmember]
    rfl
  · rw [Datum.reached, hd.leaves_eq (FieldKind.object_ne_collection shape),
      List.flatMap_singleton, hmember]

/-- Quantifiers around a leaf ask it about all values that the path reaches. The names gathered so
far lead from the scope to the object that the other segments start in. -/
theorem holds_quantify {leaf : FieldPath → Predicate} {ask : α → Prop} {caseSensitive : Bool}
    {shape : Shape} {segments : List String} {steps : List Step} {kind : FieldKind}
    (h : shape.Leads (Shape.LooksUp caseSensitive) segments steps kind)
    (hkind : kind.unwrap.2.scalar?.isSome = true)
    (hleaf : ∀ scope' names' a, scope'.at? names' = some (.scalar a) →
      ((leaf ⟨names'⟩).Holds test scope' ↔ ask a))
    {names : List String} {scope d : Datum α} (hat : scope.at? names = some d)
    (hd : d.Conforms (.object shape)) :
    (quantify q leaf names steps).Holds test scope ↔
      q.Over (d.reached (steps.map Step.name)) ask := by
  induction h generalizing scope names d with
  | @last shape name declared depth target hname htarget =>
    rw [FieldKind.unwrap_inCollections htarget] at hkind
    obtain ⟨inner, hinner, hat', hreached⟩ := hd.exists_lookup hname
    change _ ↔ q.Over (d.reached [declared]) ask
    rw [hreached, hinner.reached_eq htarget, q.over_flatMap]
    refine holds_quantify_cons htarget (hat' _ _ hat) hinner
      fun scope' names' value hvalue hat => ?_
    obtain ⟨a, rfl⟩ := (hinner.leaf htarget value hvalue).exists_scalar hkind
    exact (hleaf scope' names' a hat).trans (q.over_singleton a ask).symm
  | @onward shape fields name declared depth rest steps kind hname _ ih =>
    have hobject := FieldKind.object_ne_collection fields
    obtain ⟨inner, hinner, hat', hreached⟩ := hd.exists_lookup hname
    change _ ↔ q.Over (d.reached (declared :: steps.map Step.name)) ask
    rw [hreached, hinner.reached_eq hobject, q.over_flatMap]
    refine holds_quantify_cons hobject (hat' _ _ hat) hinner
      fun scope' names' value hvalue hat => ?_
    exact ih hkind hat (hinner.leaf hobject value hvalue)

end Quantified

/-! Conditions. -/

section Compiled

variable {α : Type} {options : CompileOptions} {shape : Shape} {p : Predicate}

theorem Comparison.holds_iff_of_compile {c : Comparison} (h : c.compile options shape = .ok p)
    (test : ScalarTest α) {r : Datum α} (hr : r.Conforms (.object shape)) :
    p.Holds test r ↔ c.Holds options shape test r := by
  obtain ⟨field, value, hfield, _, hvalue, rfl⟩ := compile_eq_ok_iff.mp h
  have hquantify : (quantify options.quantifier
      (fun path => .compare path field.kind c.op value c.ignoreCase) [] field.steps).Holds test r ↔
      options.quantifier.Over (r.reached field.names)
        (test field.kind c.op value c.ignoreCase) := by
    obtain ⟨depth, target, hleads, hscalar⟩ := Shape.resolveSegments_eq_ok_iff.mp hfield
    have htarget := FieldKind.not_collection_of_scalar? hscalar
    refine holds_quantify hleads ?_ (fun scope names a hat => ?_) (Datum.at?_nil r) hr
    · rw [FieldKind.unwrap_inCollections htarget, hscalar]
      rfl
    · simp [Predicate.Holds, hat]
  refine hquantify.trans ⟨fun hover => ⟨field, value, hfield, hvalue, hover⟩, ?_⟩
  rintro ⟨field', value', hfield', hvalue', hover⟩
  rw [hfield] at hfield'
  cases hfield'
  rw [hvalue] at hvalue'
  cases hvalue'
  exact hover

/-- The connectives are kept, so a condition means what its comparisons mean. -/
theorem Condition.holds_iff_of_compile {n : Condition} (h : n.compile options shape = .ok p)
    (test : ScalarTest α) {r : Datum α} (hr : r.Conforms (.object shape)) :
    p.Holds test r ↔ n.Holds options shape test r := by
  induction n generalizing p with
  | comparison c => exact c.holds_iff_of_compile h test hr
  | and l r ihl ihr =>
    rw [Condition.compile] at h
    obtain ⟨left, hl, h⟩ := bind_eq_ok_iff.mp h
    obtain ⟨right, hr, h⟩ := bind_eq_ok_iff.mp h
    cases h
    exact and_congr (ihl hl) (ihr hr)
  | or l r ihl ihr =>
    rw [Condition.compile] at h
    obtain ⟨left, hl, h⟩ := bind_eq_ok_iff.mp h
    obtain ⟨right, hr, h⟩ := bind_eq_ok_iff.mp h
    cases h
    exact or_congr (ihl hl) (ihr hr)
  | group n ih => exact ih h

def Condition.withoutGroups : Condition → Condition
  | .comparison c => .comparison c
  | .and l r => .and l.withoutGroups r.withoutGroups
  | .or l r => .or l.withoutGroups r.withoutGroups
  | .group n => n.withoutGroups

/-- Groups leave nothing behind in a predicate. -/
theorem Condition.compile_withoutGroups (options : CompileOptions) (shape : Shape)
    (n : Condition) : n.withoutGroups.compile options shape = n.compile options shape := by
  induction n with
  | comparison c => rfl
  | and l r ihl ihr => simp only [withoutGroups, compile, ihl, ihr]
  | or l r ihl ihr => simp only [withoutGroups, compile, ihl, ihr]
  | group n ih => exact ih

/-- A compiled predicate says of every record of its shape what the condition says, whatever test
the comparisons put to single values. Where its groups stand makes no difference. -/
theorem Predicate.holds_iff_condition_holds {n : Condition}
    (h : n.compile options shape = .ok p) (test : ScalarTest α) {r : Datum α}
    (hr : r.Conforms (.object shape)) :
    (p.Holds test r ↔ n.Holds options shape test r) ∧
    ∀ m : Condition, m.withoutGroups = n.withoutGroups → m.compile options shape = .ok p ∧
      (m.Holds options shape test r ↔ n.Holds options shape test r) := by
  have hn := n.holds_iff_of_compile h test hr
  refine ⟨hn, fun m hm => ?_⟩
  have hcompile : m.compile options shape = .ok p := by
    rw [← m.compile_withoutGroups, hm, n.compile_withoutGroups, h]
  exact ⟨hcompile, (m.holds_iff_of_compile hcompile test hr).symm.trans hn⟩

/-- In a list of lists of objects, one of which is empty, some tag is `a` and some is not. -/
theorem Predicate.holds_iff_on_nested_lists :
    let shape : Shape := .field "Items" (.collection (.collection (.object
      (.field "Tags" (.collection .string) .empty)))) .empty
    let n : Condition := .group (.comparison
      ⟨"Items.Tags", {}, .equals, false, .single ⟨.string, "a", {}⟩, {}⟩)
    let nested (q : Quantifier) : Predicate :=
      .quantified q ⟨["Items"]⟩ (.quantified q .element (.quantified q ⟨["Tags"]⟩
        (.compare .element .string .equals (.text "a") false)))
    let tagged (tags : List String) : Datum String :=
      .object [("Tags", .collection (tags.map .scalar))]
    let r : Datum String := .object [("Items", .collection [
      .collection [tagged [], tagged ["b", "a"]], .collection []])]
    let equal : ScalarTest String := fun _ _ value _ s => value = .text s
    r.Conforms (.object shape) ∧
    (n.compile { quantifier := .any } shape = .ok (nested .any) ∧ (nested .any).Holds equal r) ∧
    (n.compile { quantifier := .all } shape = .ok (nested .all) ∧
      ¬ (nested .all).Holds equal r) := by
  intro shape n nested tagged r equal
  have htagged : ∀ tags, (tagged tags).Conforms
      (.object (.field "Tags" (.collection .string) .empty)) := by
    intro tags
    refine Datum.conforms_field rfl (.collection ?_) (Datum.conforms_empty _)
    intro d hd
    obtain ⟨s, _, rfl⟩ := List.mem_map.mp hd
    exact .scalar s rfl
  have hr : r.Conforms (.object shape) := by
    refine Datum.conforms_field rfl (.collection ?_) (Datum.conforms_empty _)
    intro d hd
    simp only [List.mem_cons, List.not_mem_nil, or_false] at hd
    obtain rfl | rfl := hd
    · refine .collection fun d hd => ?_
      simp only [List.mem_cons, List.not_mem_nil, or_false] at hd
      obtain rfl | rfl := hd
      · exact htagged _
      · exact htagged _
    · exact .collection nofun
  have hresolve : shape.resolve true "Items.Tags" =
      .ok ⟨[⟨"Items", 2⟩, ⟨"Tags", 1⟩], .string, []⟩ := rfl
  have hreached : r.reached ["Items", "Tags"] = ["b", "a"] := rfl
  have hany : n.compile { quantifier := .any } shape = .ok (nested .any) := rfl
  have hall : n.compile { quantifier := .all } shape = .ok (nested .all) := rfl
  refine ⟨hr, ⟨hany, ?_⟩, hall, ?_⟩
  · rw [(holds_iff_condition_holds hany equal hr).1]
    have hmem : "a" ∈ r.reached ["Items", "Tags"] := by simp [hreached]
    exact ⟨_, _, hresolve, rfl, "a", hmem, rfl⟩
  · rw [(holds_iff_condition_holds hall equal hr).1]
    rintro ⟨field, value, hfield, hvalue, hover⟩
    rw [show shape.resolve _ _ = _ from hresolve] at hfield
    cases hfield
    cases hvalue
    have hmem : "b" ∈ r.reached ["Items", "Tags"] := by simp [hreached]
    have hb : equal .string .equals (.text "a") false "b" := hover "b" hmem
    simp [equal] at hb

end Compiled

end RecordFilter
