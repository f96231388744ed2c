import RecordFilter.Proofs.Declarations
import RecordFilter.Proofs.Rules

/-!
Paths through a shape. Segments lead to a field if each of them is found in the object that the one
before leads to, where any number of collections may lie around the object. A path resolves just if
it leads to a single value, and the steps name the fields that were found, as they are declared,
with the number of collections around each.
-/
namespace RecordFilter

def FieldKind.inCollections (depth : Nat) (kind : FieldKind) : FieldKind :=
  Nat.repeat .collection depth kind

/-- Where segments lead, by a way of finding the field of a name: the declared name and the
collections of each field, and the kind of the last field. -/
inductive Shape.Leads (found : Shape → String → String → FieldKind → Prop) :
    Shape → List String → List Step → FieldKind → Prop
  | last {shape : Shape} {name declared : String} {depth : Nat} {target : FieldKind} :
    found shape name declared (target.inCollections depth) →
    (∀ element, target ≠ .collection element) →
    Leads found shape [name] [⟨declared, depth⟩] (target.inCollections depth)
  | onward {shape fields : Shape} {name declared : String} {depth : Nat} {rest : List String}
      {steps : List Step} {kind : FieldKind} :
    found shape name declared ((FieldKind.object fields).inCollections depth) →
    Leads found fields rest steps kind →
    Leads found shape (name :: rest) (⟨declared, depth⟩ :: steps) kind

def Shape.Declares (shape : Shape) (name declared : String) (kind : FieldKind) : Prop :=
  declared = name ∧ (name, kind) ∈ shape.toList

def Shape.LooksUp (caseSensitive : Bool) (shape : Shape) (name declared : String)
    (kind : FieldKind) : Prop :=
  shape.lookup caseSensitive name = some (declared, kind)

/-! Segments. -/

theorem not_mem_of_mem_splitOn {cs word : List Char} {c : Char} (h : word ∈ cs.splitOn c) :
    c ∉ word := by
  induction cs generalizing word with
  | nil =>
    rw [List.splitOn_nil, List.mem_singleton] at h
    subst h
    exact List.not_mem_nil
  | cons d cs ih =>
    rw [List.splitOn_cons_eq_if_modifyHead] at h
    by_cases hd : (d == c) = true
    · rw [if_pos hd] at h
      obtain rfl | h := List.mem_cons.mp h
      · exact List.not_mem_nil
      · exact ih h
    · rw [if_neg hd] at h
      obtain ⟨first, more, hsplit⟩ := List.exists_cons_of_ne_nil (List.splitOn_ne_nil c cs)
      rw [hsplit, List.modifyHead_cons] at h
      rw [hsplit] at ih
      obtain rfl | h := List.mem_cons.mp h
      · refine fun hmem => ?_
        obtain rfl | hmem := List.mem_cons.mp hmem
        · exact hd (beq_self_eq_true c)
        · exact ih List.mem_cons_self hmem
      · exact ih (List.mem_cons_of_mem _ h)

/-- The segments of a path are what is between its dots. -/
theorem pathSegments_eq_iff {path : String} {names : List String} :
    pathSegments path = names ↔
      names ≠ [] ∧ (∀ name ∈ names, '.' ∉ name.toList) ∧ ".".intercalate names = path := by
  have hdot : ".".toList = ['.'] := rfl
  constructor
  · rintro rfl
    refine ⟨?nonempty, fun name hname => ?_, ?joined⟩
    case nonempty => simp [pathSegments, List.splitOn_ne_nil]
    case joined =>
      rw [← String.toList_inj, String.toList_intercalate, hdot, pathSegments, List.map_map]
      simp [Function.comp_def, List.intercalate_splitOn]
    obtain ⟨word, hword, rfl⟩ := List.mem_map.mp hname
    rw [String.toList_ofList]
    exact not_mem_of_mem_splitOn hword
  · rintro ⟨hne, hplain, rfl⟩
    rw [pathSegments, String.toList_intercalate, hdot, List.splitOn_intercalate, List.map_map]
    · simp [Function.comp_def]
    · simpa using hplain
    · simpa using hne

/-- No segment of a path has a dot in it. -/
theorem pathSegments_plain {path name : String} (h : name ∈ pathSegments path) :
    '.' ∉ name.toList :=
  (pathSegments_eq_iff.mp rfl).2.1 name h

/-- Names without dots are the segments of the path that they are joined to. -/
theorem pathSegments_intercalate {names : List String} (hne : names ≠ [])
    (h : ∀ name ∈ names, '.' ∉ name.toList) : pathSegments (".".intercalate names) = names :=
  pathSegments_eq_iff.mpr ⟨hne, h, rfl⟩

/-! Collections. -/

namespace FieldKind

/-- Taking collections off a kind undoes putting them around it. -/
theorem unwrap_inCollections {target : FieldKind} (h : ∀ element, target ≠ .collection element)
    (depth : Nat) : (target.inCollections depth).unwrap = (depth, target) := by
  induction depth with
  | zero =>
    cases target with
    | collection element => exact absurd rfl (h element)
    | _ => rfl
  | succ depth ih =>
    change (FieldKind.collection (target.inCollections depth)).unwrap = _
    rw [unwrap, ih]

theorem unwrap_ne_collection (kind element : FieldKind) : kind.unwrap.2 ≠ .collection element := by
  induction kind using unwrap.induct with
  | case1 _ ih => exact ih
  | case2 kind hkind =>
    cases kind with
    | collection element => exact absurd rfl (hkind element)
    | _ => exact nofun

theorem inCollections_unwrap (kind : FieldKind) :
    kind.unwrap.2.inCollections kind.unwrap.1 = kind := by
  induction kind using unwrap.induct with
  | case1 element ih => exact congrArg collection ih
  | case2 kind hkind =>
    cases kind with
    | collection element => exact absurd rfl (hkind element)
    | _ => rfl

theorem ordered_inCollections {kind : FieldKind} {depth : Nat}
    (h : (kind.inCollections depth).Ordered) : kind.Ordered := by
  induction depth with
  | zero => exact h
  | succ depth ih => exact ih ((ordered_collection_iff _).mp h)

theorem object_ne_collection (fields : Shape) (element : FieldKind) :
    object fields ≠ .collection element := nofun

theorem not_collection_of_scalar? {target : FieldKind} {scalar : ValueKind × List String}
    (h : target.scalar? = some scalar) (element : FieldKind) : target ≠ .collection element := by
  rintro rfl
  cases h

end FieldKind

/-! Where segments lead. -/

namespace Shape

variable {found found' : Shape → String → String → FieldKind → Prop} {shape : Shape}
  {names : List String} {steps : List Step} {kind : FieldKind} {caseSensitive : Bool}

theorem Leads.ne_nil (h : shape.Leads found names steps kind) : names ≠ [] := by
  cases h with
  | last | onward => exact List.cons_ne_nil _ _

/-- Another way of finding names leads the same way if it finds the same in every object on it. -/
theorem Leads.imp (Good : Shape → Prop) (h : shape.Leads found names steps kind)
    (hshape : Good shape)
    (hfound : ∀ shape name declared kind, Good shape → found shape name declared kind →
      found' shape name declared kind)
    (hinside : ∀ shape fields name declared depth, Good shape →
      found shape name declared ((FieldKind.object fields).inCollections depth) → Good fields) :
    shape.Leads found' names steps kind := by
  induction h with
  | last hlast htarget => exact .last (hfound _ _ _ _ hshape hlast) htarget
  | onward hnext _ ih =>
    exact .onward (hfound _ _ _ _ hshape hnext) (ih (hinside _ _ _ _ _ hshape hnext))

/-- Both ways of finding a field lead to the same ones, since inner shapes are in order too. -/
theorem Ordered.leads (hshape : shape.Ordered) (h : shape.Leads found names steps kind)
    (hfound : ∀ shape name declared kind, shape.Ordered → found shape name declared kind →
      found' shape name declared kind ∧ (declared, kind) ∈ shape.toList) :
    shape.Leads found' names steps kind := by
  refine h.imp Ordered hshape (fun shape name declared kind hgood hname => ?_)
    (fun shape fields name declared depth hgood hname => ?_)
  · exact (hfound _ _ _ _ hgood hname).1
  · have hkind := hgood.kind_of_mem (hfound _ _ _ _ hgood hname).2
    exact (FieldKind.ordered_object_iff fields).mp (FieldKind.ordered_inCollections hkind)

end Shape

namespace OrderedShape

variable {names : List String} {steps : List Step} {kind : FieldKind} {caseSensitive : Bool}

/-- Lookups find the names that are to be found. -/
theorem leads_lookup_iff (shape : OrderedShape) :
    shape.shape.Leads (Shape.LooksUp caseSensitive) names steps kind ↔
      shape.shape.Leads (Shape.Finds caseSensitive) names steps kind := by
  constructor
  · intro h
    refine shape.ordered.leads h fun shape name declared kind hgood hname => ?_
    have hfinds := hgood.sorted.lookup_eq_some_iff.mp hname
    exact ⟨hfinds, hfinds.mem⟩
  · intro h
    refine shape.ordered.leads h fun shape name declared kind hgood hname => ?_
    exact ⟨hgood.sorted.lookup_eq_some_iff.mpr hname, hname.mem⟩

/-- Declared names are found in both ways. -/
theorem leads_of_declares (shape : OrderedShape)
    (h : shape.shape.Leads Shape.Declares names steps kind) :
    shape.shape.Leads (Shape.LooksUp caseSensitive) names steps kind := by
  refine shape.ordered.leads h ?_
  rintro shape name _ kind hgood ⟨rfl, hmem⟩
  exact ⟨hgood.sorted.lookup_eq_some_iff.mpr (.exact hmem), hmem⟩

end OrderedShape

namespace Shape

variable {shape : Shape} {names : List String} {steps : List Step} {kind : FieldKind}
  {caseSensitive : Bool}

/-! What a resolved path is. -/

def outcome (steps : List Step) (kind : FieldKind) : Except PathFault ResolvedField :=
  match kind.unwrap.2.scalar? with
  | some (valueKind, variants) => .ok ⟨steps, valueKind, variants⟩
  | none => .error (.notScalar kind.describe)

theorem map_outcome (step : Step) (steps : List Step) (kind : FieldKind) :
    (outcome steps kind).map (fun f => { f with steps := step :: f.steps }) =
      outcome (step :: steps) kind := by
  unfold outcome
  cases kind.unwrap.2.scalar? <;> rfl

/-- A path ends well just if what is inside the collections at its end is a single value. -/
theorem outcome_inCollections {target : FieldKind} (h : ∀ element, target ≠ .collection element)
    (steps : List Step) (depth : Nat) : outcome steps (target.inCollections depth) =
      match target.scalar? with
      | some (valueKind, variants) => .ok ⟨steps, valueKind, variants⟩
      | none => .error (.notScalar (target.inCollections depth).describe) := by
  rw [outcome, FieldKind.unwrap_inCollections h]

/-- What a path leads to decides what resolving it gives. -/
theorem Leads.resolveSegments_eq (h : shape.Leads (LooksUp caseSensitive) names steps kind) :
    shape.resolveSegments caseSensitive names = outcome steps kind := by
  induction h with
  | @last shape name declared depth target hname htarget =>
    have hdepth : (target.inCollections depth).unwrap.1 = depth := by
      rw [FieldKind.unwrap_inCollections htarget]
    have hlast : resolveLast declared (target.inCollections depth) =
        outcome [⟨declared, (target.inCollections depth).unwrap.1⟩]
          (target.inCollections depth) := rfl
    simp only [LooksUp] at hname
    simp only [resolveSegments, hname, List.isEmpty_nil, if_true]
    rw [hlast, hdepth]
  | @onward shape fields name declared depth rest steps kind hname hrest ih =>
    simp only [LooksUp] at hname
    have hempty : ¬ rest.isEmpty = true := fun h => hrest.ne_nil (List.isEmpty_iff.mp h)
    have hobject :
        ((FieldKind.object fields).inCollections depth).unwrap = (depth, .object fields) :=
      FieldKind.unwrap_inCollections (FieldKind.object_ne_collection fields) depth
    simp only [resolveSegments, hname, if_neg hempty, hobject, ih]
    exact map_outcome _ _ _

/-- Every result but an unknown field comes of a path that leads somewhere. -/
theorem leads_of_resolveSegments
    (h : shape.resolveSegments caseSensitive names ≠ .error .unknown) :
    ∃ steps kind, shape.Leads (LooksUp caseSensitive) names steps kind := by
  induction names generalizing shape with
  | nil => exact absurd rfl h
  | cons name rest ih =>
    rw [resolveSegments] at h
    cases hname : shape.lookup caseSensitive name with
    | none => simp [hname] at h
    | some entry =>
      obtain ⟨declared, kind⟩ := entry
      simp only [hname] at h
      rw [← kind.inCollections_unwrap] at hname
      cases rest with
      | nil => exact ⟨_, _, .last hname kind.unwrap_ne_collection⟩
      | cons next rest =>
        have hpair : kind.unwrap = (kind.unwrap.1, kind.unwrap.2) := rfl
        simp only [List.isEmpty_cons, Bool.false_eq_true, if_false] at h
        cases hobject : kind.unwrap.2 with
        | object fields =>
          rw [hpair, hobject] at h
          rw [hobject] at hname
          have hfields : fields.resolveSegments caseSensitive (next :: rest) ≠ .error .unknown := by
            intro hunknown
            simp only [hunknown] at h
            exact h rfl
          obtain ⟨steps, kind', hrest⟩ := ih hfields
          exact ⟨_, _, .onward hname hrest⟩
        | _ =>
          rw [hpair, hobject] at h
          exact absurd rfl h

theorem resolveSegments_eq_ok_iff {field : ResolvedField} :
    shape.resolveSegments caseSensitive names = .ok field ↔
      ∃ depth, ∃ target : FieldKind, shape.Leads (LooksUp caseSensitive) names field.steps
          (target.inCollections depth) ∧ target.scalar? = some (field.kind, field.variants) := by
  constructor
  · intro h
    obtain ⟨steps, kind, hleads⟩ := leads_of_resolveSegments (by rw [h]; exact nofun)
    rw [hleads.resolveSegments_eq, outcome] at h
    cases hscalar : kind.unwrap.2.scalar? with
    | none => simp [hscalar] at h
    | some scalar =>
      obtain ⟨valueKind, variants⟩ := scalar
      simp only [hscalar, Except.ok.injEq] at h
      subst h
      refine ⟨kind.unwrap.1, kind.unwrap.2, ?_, hscalar⟩
      rwa [kind.inCollections_unwrap]
  · rintro ⟨depth, target, hleads, hscalar⟩
    rw [hleads.resolveSegments_eq,
      outcome_inCollections (FieldKind.not_collection_of_scalar? hscalar), hscalar]

theorem resolveSegments_eq_notScalar_iff {described : String} :
    shape.resolveSegments caseSensitive names = .error (.notScalar described) ↔
      ∃ steps depth fields, shape.Leads (LooksUp caseSensitive) names steps
          ((FieldKind.object fields).inCollections depth) ∧
        described = ((FieldKind.object fields).inCollections depth).describe := by
  constructor
  · intro h
    obtain ⟨steps, kind, hleads⟩ := leads_of_resolveSegments (by rw [h]; exact nofun)
    rw [hleads.resolveSegments_eq, outcome] at h
    cases htarget : kind.unwrap.2 with
    | object fields =>
      simp only [htarget, FieldKind.scalar?, Except.error.injEq, PathFault.notScalar.injEq] at h
      subst h
      refine ⟨steps, kind.unwrap.1, fields, ?_⟩
      rw [← htarget, kind.inCollections_unwrap]
      exact ⟨hleads, rfl⟩
    | collection element => exact absurd htarget (kind.unwrap_ne_collection element)
    | _ => simp [htarget, FieldKind.scalar?] at h
  · rintro ⟨steps, depth, fields, hleads, rfl⟩
    rw [hleads.resolveSegments_eq, outcome_inCollections (FieldKind.object_ne_collection fields)]
    rfl

theorem resolveSegments_eq_unknown_iff :
    shape.resolveSegments caseSensitive names = .error .unknown ↔
      ¬ ∃ steps kind, shape.Leads (LooksUp caseSensitive) names steps kind := by
  constructor
  · rintro h ⟨steps, kind, hleads⟩
    rw [hleads.resolveSegments_eq, outcome] at h
    cases hscalar : kind.unwrap.2.scalar? <;> simp [hscalar] at h
  · intro h
    by_contra hne
    exact h (leads_of_resolveSegments hne)

end Shape

/-- A path of declared names is resolved whether or not letter case counts. -/
theorem OrderedShape.resolve_of_declares (shape : OrderedShape) {caseSensitive : Bool}
    {names : List String} {steps : List Step} {depth : Nat} {target : FieldKind}
    {kind : ValueKind} {variants : List String}
    (h : shape.shape.Leads Shape.Declares names steps (target.inCollections depth))
    (hscalar : target.scalar? = some (kind, variants))
    (hnames : ∀ name ∈ names, '.' ∉ name.toList) :
    shape.shape.resolve caseSensitive (".".intercalate names) = .ok ⟨steps, kind, variants⟩ := by
  rw [Shape.resolve, pathSegments_intercalate h.ne_nil hnames, Shape.resolveSegments_eq_ok_iff]
  exact ⟨depth, target, shape.leads_of_declares h, hscalar⟩

/-- A path resolves just if its segments lead to a single value, and then the steps are those that
lead there. If they lead to an object, the path cannot be compared, and if they lead nowhere, it is
unknown. Every single value that is declared under names without dots is found, in both case modes,
by its dotted path. -/
theorem resolveField_follows_paths (shape : OrderedShape) (caseSensitive : Bool) (path : String)
    (span : Span) :
    (∀ field, resolveField caseSensitive shape path span = .ok field ↔
      ∃ depth, ∃ target : FieldKind,
        shape.shape.Leads (Shape.Finds caseSensitive) (pathSegments path) field.steps
          (target.inCollections depth) ∧
        target.scalar? = some (field.kind, field.variants)) ∧
    (∀ described, resolveField caseSensitive shape path span =
        .error (.notComparable path described span) ↔
      ∃ steps depth fields,
        shape.shape.Leads (Shape.Finds caseSensitive) (pathSegments path) steps
          ((FieldKind.object fields).inCollections depth) ∧
        described = ((FieldKind.object fields).inCollections depth).describe) ∧
    (resolveField caseSensitive shape path span = .error (.unknownField path span) ↔
      ¬ ∃ steps kind,
        shape.shape.Leads (Shape.Finds caseSensitive) (pathSegments path) steps kind) ∧
    ∀ names steps depth, ∀ target : FieldKind, ∀ kind variants,
      shape.shape.Leads Shape.Declares names steps (target.inCollections depth) →
      target.scalar? = some (kind, variants) → (∀ name ∈ names, '.' ∉ name.toList) →
      resolveField caseSensitive shape (".".intercalate names) span =
        .ok ⟨steps, kind, variants⟩ := by
  simp only [← shape.leads_lookup_iff, resolveField_eq_ok_iff, resolveField_eq_error_iff]
  refine ⟨fun field => Shape.resolveSegments_eq_ok_iff, fun described => ?notComparable, ?unknown,
    fun names steps depth target kind variants h hscalar hnames =>
      shape.resolve_of_declares h hscalar hnames⟩
  case notComparable =>
    simp only [reduceCtorEq, and_false, false_or, CompileError.notComparable.injEq, true_and,
      and_true, exists_eq_right]
    exact Shape.resolveSegments_eq_notScalar_iff
  case unknown =>
    simp only [reduceCtorEq, and_false, exists_false, or_false, and_true]
    exact Shape.resolveSegments_eq_unknown_iff

/-- Two names that differ in case only, one of them with a list of lists. -/
theorem resolveField_follows_paths_in_nested_lists :
    let entry : Shape := .field "Name" .string (.field "name" .number .empty)
    let shape : Shape := .field "Items" (.collection (.collection (.object entry)))
      (.field "items" (.object entry) .empty)
    shape.Ordered ∧
    (∃ depth, ∃ target : FieldKind, shape.Leads (Shape.Finds false) ["ITEMS", "nAME"]
        [⟨"Items", 2⟩, ⟨"Name", 0⟩] (target.inCollections depth) ∧
      target.scalar? = some (.string, [])) ∧
    (∃ steps depth fields, shape.Leads (Shape.Finds false) ["ITEMS"] steps
        ((FieldKind.object fields).inCollections depth) ∧
      "collection of collection of object" =
        ((FieldKind.object fields).inCollections depth).describe) ∧
    (¬ ∃ steps kind, shape.Leads (Shape.Finds true) ["ITEMS", "nAME"] steps kind) ∧
    ∀ span, resolveField true shape "items.name" span =
      .ok ⟨[⟨"items", 0⟩, ⟨"name", 0⟩], .number, []⟩ := by
  intro entry shape
  have hnumber : (Shape.field "name" .number .empty).Ordered :=
    (Shape.ordered_field_iff _ _ _).mpr ⟨nofun, trivial, Shape.ordered_empty⟩
  have hentry : entry.Ordered := (Shape.ordered_field_iff _ _ _).mpr
    ⟨List.forall_mem_singleton.mpr (by decide), trivial, hnumber⟩
  have hobjects : (Shape.field "items" (.object entry) .empty).Ordered :=
    (Shape.ordered_field_iff _ _ _).mpr
      ⟨nofun, (FieldKind.ordered_object_iff entry).mpr hentry, Shape.ordered_empty⟩
  have hshape : shape.Ordered := (Shape.ordered_field_iff _ _ _).mpr
    ⟨List.forall_mem_singleton.mpr (by decide), by simpa using hentry, hobjects⟩
  have hsegment : pathSegments "ITEMS" = ["ITEMS"] := by decide +kernel
  have hsegments : pathSegments "ITEMS.nAME" = ["ITEMS", "nAME"] := by decide +kernel
  obtain ⟨hok, _⟩ := resolveField_follows_paths ⟨shape, hshape⟩ false "ITEMS.nAME" ⟨0, 10⟩
  obtain ⟨_, hobject, _⟩ := resolveField_follows_paths ⟨shape, hshape⟩ false "ITEMS" ⟨0, 5⟩
  obtain ⟨_, _, hunknown, _⟩ := resolveField_follows_paths ⟨shape, hshape⟩ true "ITEMS.nAME" ⟨0, 10⟩
  dsimp only at hok hobject hunknown
  rw [hsegments] at hok hunknown
  rw [hsegment] at hobject
  refine ⟨hshape, (hok ⟨_, .string, []⟩).mp (by decide +kernel),
    (hobject _).mp (by decide +kernel), hunknown.mp (by decide +kernel), fun span => ?_⟩
  obtain ⟨_, _, _, hdeclared⟩ := resolveField_follows_paths ⟨shape, hshape⟩ true "items.name" span
  have hname : entry.Leads Shape.Declares ["name"] [⟨"name", 0⟩]
      (FieldKind.number.inCollections 0) := .last ⟨rfl, .tail _ (.head _)⟩ nofun
  have hitems : shape.Leads Shape.Declares ["items", "name"] [⟨"items", 0⟩, ⟨"name", 0⟩]
      (FieldKind.number.inCollections 0) := .onward ⟨rfl, .tail _ (.head _)⟩ hname
  exact hdeclared _ _ 0 .number .number [] hitems rfl (by decide)

end RecordFilter
