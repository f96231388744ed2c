import Mathlib.Data.List.Induction
import RecordFilter.Shape.Json
import RecordFilter.Shape.Resolve

/-!
Declared fields. The fields of every object in a shape are in the order of their names, each name
once, however the shape was made. A lookup therefore gives the least name among those that match.
-/
namespace RecordFilter

namespace Shape

/-- Declarations are inserted from the first to the last. -/
theorem ofList_concat (fields : List (String × FieldKind)) (entry : String × FieldKind) :
    ofList (fields ++ [entry]) = (ofList fields).insert entry.1 entry.2 := by
  rw [ofList, List.foldl_append]
  rfl

end Shape

/-! Lookups. -/

/-- The first element with a property is the first one with a narrower property that it has. -/
theorem find?_of_find? {α : Type} {p q : α → Bool} {xs : List α} {a : α}
    (h : xs.find? p = some a) (hq : q a = true) (himp : ∀ b, q b = true → p b = true) :
    xs.find? q = some a := by
  induction xs with
  | nil => cases h
  | cons x xs ih =>
    cases hx : p x with
    | true =>
      rw [List.find?_cons_of_pos hx] at h
      cases h
      rw [List.find?_cons_of_pos hq]
    | false =>
      rw [List.find?_cons_of_neg (by simp [hx])] at h
      have hqx : ¬ q x = true := fun hqx => by simp [himp x hqx] at hx
      rw [List.find?_cons_of_neg hqx]
      exact ih h

/-- The first match in a list that is ordered by names is the one of the least name. -/
theorem find?_eq_some_iff_least {β : Type} {xs : List (String × β)}
    (h : xs.Pairwise fun a b => a.1 < b.1) {p : String × β → Bool} {a : String × β} :
    xs.find? p = some a ↔ a ∈ xs ∧ p a = true ∧ ∀ b ∈ xs, p b = true → a.1 ≤ b.1 := by
  induction h with
  | nil => simp
  | @cons x xs hx _ ih =>
    by_cases hp : p x = true
    · rw [List.find?_cons_of_pos hp, Option.some.injEq]
      constructor
      · rintro rfl
        refine ⟨List.mem_cons_self, hp, fun b hb _ => ?_⟩
        obtain rfl | hb := List.mem_cons.mp hb
        · exact String.le_refl _
        · exact Std.le_of_lt (hx b hb)
      · rintro ⟨ha, _, hleast⟩
        obtain rfl | ha := List.mem_cons.mp ha
        · rfl
        · exact absurd (hx a ha) (String.not_lt.mpr (hleast x List.mem_cons_self hp))
    · rw [List.find?_cons_of_neg hp, ih]
      constructor
      · rintro ⟨ha, hpa, hleast⟩
        refine ⟨List.mem_cons_of_mem x ha, hpa, fun b hb hpb => ?_⟩
        obtain rfl | hb := List.mem_cons.mp hb
        · exact absurd hpb hp
        · exact hleast b hb hpb
      · rintro ⟨ha, hpa, hleast⟩
        obtain rfl | ha := List.mem_cons.mp ha
        · exact absurd hpa hp
        · exact ⟨ha, hpa, fun b hb => hleast b (List.mem_cons_of_mem x hb)⟩

namespace Shape

variable {shape : Shape} {name declared : String} {kind : FieldKind}

/-- A field that is found in any way is found again by its declared name. -/
theorem get?_of_find? {p : String → Bool} (h : shape.find? p = some (declared, kind)) :
    shape.get? declared = some (declared, kind) := by
  have hdeclared : p declared = true := by simpa using List.find?_some h
  refine find?_of_find? h (by simp) fun entry hentry => ?_
  rwa [eq_of_beq hentry]

theorem lookup_caseSensitive : shape.lookup true name = shape.get? name := if_pos rfl

/-- Without letter case the exact name goes first, and only then the first name in the order of the
declared fields. -/
theorem lookup_ignoringCase_eq_some_iff {entry : String × FieldKind} :
    shape.lookup false name = some entry ↔ shape.get? name = some entry ∨
      shape.get? name = none ∧
        shape.find? (fun declared => sameIgnoringCase declared name) = some entry := by
  rw [lookup, if_neg Bool.false_ne_true, getIgnoringCase?, Option.or_eq_some_iff]

/-- A lookup gives the first field that passes a test, and only the name that is looked up passes
it, up to letter case. -/
theorem find?_of_lookup {caseSensitive : Bool} {entry : String × FieldKind}
    (h : shape.lookup caseSensitive name = some entry) :
    ∃ p : String → Bool, shape.find? p = some entry ∧
      ∀ declared, p declared = true → sameIgnoringCase declared name = true := by
  have hexact : ∀ declared, (declared == name) = true → sameIgnoringCase declared name = true := by
    intro declared hdeclared
    rw [eq_of_beq hdeclared]
    exact beq_self_eq_true _
  cases caseSensitive with
  | true =>
    rw [lookup_caseSensitive] at h
    exact ⟨_, h, hexact⟩
  | false =>
    obtain h | ⟨_, h⟩ := lookup_ignoringCase_eq_some_iff.mp h
    · exact ⟨_, h, hexact⟩
    · exact ⟨_, h, fun _ => id⟩

theorem get?_of_lookup {caseSensitive : Bool}
    (h : shape.lookup caseSensitive name = some (declared, kind)) :
    shape.get? declared = some (declared, kind) := by
  obtain ⟨_, hfind, _⟩ := find?_of_lookup h
  exact get?_of_find? hfind

/-- The name that is found is the one that was looked for, up to letter case. -/
theorem sameIgnoringCase_of_lookup {caseSensitive : Bool}
    (h : shape.lookup caseSensitive name = some (declared, kind)) :
    sameIgnoringCase declared name = true := by
  obtain ⟨_, hfind, htest⟩ := find?_of_lookup h
  exact htest declared (by simpa using List.find?_some hfind)

theorem name_of_get? (h : shape.get? name = some (declared, kind)) : declared = name := by
  simpa using List.find?_some h

theorem get?_field_cases {other : String} {otherKind : FieldKind} {rest : Shape}
    (h : (Shape.field other otherKind rest).get? name = some (declared, kind)) :
    declared = other ∧ kind = otherKind ∨ rest.get? name = some (declared, kind) := by
  rw [get?, find?, toList_field, List.find?_cons] at h
  split at h
  · cases h
    exact .inl ⟨rfl, rfl⟩
  · exact .inr h

/-- In a shape in order an exact lookup finds a field just if it is declared. -/
theorem Sorted.get?_eq_some_iff (h : shape.Sorted) :
    shape.get? name = some (declared, kind) ↔ declared = name ∧ (name, kind) ∈ shape.toList := by
  rw [get?, find?, find?_eq_some_iff_least h]
  simp only [beq_iff_eq]
  constructor
  · rintro ⟨hmem, rfl, _⟩
    exact ⟨rfl, hmem⟩
  · rintro ⟨rfl, hmem⟩
    exact ⟨hmem, rfl, fun _ _ heq => heq ▸ String.le_refl _⟩

theorem get?_eq_none_iff : shape.get? name = none ↔ ∀ kind, (name, kind) ∉ shape.toList := by
  rw [get?, find?, List.find?_eq_none]
  constructor
  · intro h kind hmem
    exact h _ hmem (beq_self_eq_true name)
  · rintro h ⟨declared, kind⟩ hmem heq
    exact h kind (eq_of_beq heq ▸ hmem)

/-- A name is found as it is declared. If letter case is ignored and no field has exactly this name,
the least of the names that differ in ASCII case only is found. -/
inductive Finds (caseSensitive : Bool) (shape : Shape) (name : String) : String → FieldKind → Prop
  | exact {kind : FieldKind} : (name, kind) ∈ shape.toList →
    Finds caseSensitive shape name name kind
  | ignoringCase {declared : String} {kind : FieldKind} : caseSensitive = false →
    (∀ kind, (name, kind) ∉ shape.toList) → (declared, kind) ∈ shape.toList →
    sameIgnoringCase declared name = true →
    (∀ entry ∈ shape.toList, sameIgnoringCase entry.1 name = true → declared ≤ entry.1) →
    Finds caseSensitive shape name declared kind

theorem Finds.mem {caseSensitive : Bool} (h : shape.Finds caseSensitive name declared kind) :
    (declared, kind) ∈ shape.toList := by
  cases h with
  | exact hmem | ignoringCase _ _ hmem => exact hmem

theorem Sorted.lookup_eq_some_iff (h : shape.Sorted) {caseSensitive : Bool} :
    shape.lookup caseSensitive name = some (declared, kind) ↔
      Finds caseSensitive shape name declared kind := by
  cases caseSensitive with
  | true =>
    rw [lookup_caseSensitive, h.get?_eq_some_iff]
    constructor
    · rintro ⟨rfl, hmem⟩
      exact .exact hmem
    · rintro (hmem | hcase)
      · exact ⟨rfl, hmem⟩
      · cases hcase
  | false =>
    rw [lookup_ignoringCase_eq_some_iff, h.get?_eq_some_iff, get?_eq_none_iff, find?,
      find?_eq_some_iff_least h]
    constructor
    · rintro (⟨rfl, hmem⟩ | ⟨hnone, hmem, hsame, hleast⟩)
      · exact .exact hmem
      · exact .ignoringCase rfl hnone hmem hsame hleast
    · rintro (hmem | ⟨_, hnone, hmem, hsame, hleast⟩)
      · exact .inl ⟨rfl, hmem⟩
      · exact .inr ⟨hnone, hmem, hsame, hleast⟩

end Shape

end RecordFilter
