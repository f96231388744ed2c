import Mathlib.Data.List.Sort
import RecordFilter.Predicate.Compile
import RecordFilter.Proofs.Declarations
import RecordFilter.Text.Order

/-!
Fields that are declared again. The last declaration of a name counts, and the order of the
declarations does not show in any other way: a shape is the map from each declared name to its last
kind, listed in the order of the bytes of the names.
-/
namespace RecordFilter

def lastDeclared? (fields : List (String × FieldKind)) (name : String) : Option FieldKind :=
  fields.reverse.lookup name

theorem lastDeclared?_concat (fields : List (String × FieldKind)) (entry : String × FieldKind)
    (name : String) : lastDeclared? (fields ++ [entry]) name =
      if name = entry.1 then some entry.2 else lastDeclared? fields name := by
  rw [lastDeclared?, List.reverse_concat, List.lookup_cons]
  by_cases hname : name = entry.1
  · rw [if_pos hname, beq_iff_eq.mpr hname]
  · rw [if_neg hname, beq_eq_false_iff_ne.mpr hname, lastDeclared?]

theorem exists_lastDeclared?_iff (fields : List (String × FieldKind)) (name : String) :
    (∃ kind, lastDeclared? fields name = some kind) ↔ name ∈ fields.map Prod.fst := by
  rw [← Option.ne_none_iff_exists', ne_eq, lastDeclared?, List.lookup_eq_none_iff, List.mem_map]
  simp [eq_comm (a := name)]

namespace Shape

variable {fields fields' : List (String × FieldKind)} {name declared : String} {kind : FieldKind}

/-- The fields of the shape are the last declarations. -/
theorem mem_ofList_iff :
    (name, kind) ∈ (ofList fields).toList ↔ lastDeclared? fields name = some kind := by
  induction fields using List.reverseRecOn with
  | nil => exact ⟨nofun, nofun⟩
  | append_singleton fields entry ih =>
    rw [ofList_concat, (sorted_ofList fields).mem_insert_iff, lastDeclared?_concat, ih,
      Prod.mk.injEq]
    by_cases hname : name = entry.1
    · rw [if_pos hname, Option.some.injEq]
      constructor
      · rintro (⟨_, hkind⟩ | ⟨hne, _⟩)
        · exact hkind.symm
        · exact absurd hname hne
      · exact fun hkind => .inl ⟨hname, hkind.symm⟩
    · rw [if_neg hname]
      constructor
      · rintro (⟨heq, _⟩ | ⟨_, hlast⟩)
        · exact absurd heq hname
        · exact hlast
      · exact fun hlast => .inr ⟨hname, hlast⟩

theorem name_mem_ofList_iff :
    name ∈ (ofList fields).toList.map Prod.fst ↔ name ∈ fields.map Prod.fst := by
  rw [← exists_lastDeclared?_iff fields]
  simp only [List.mem_map, Prod.exists, exists_and_right, exists_eq_right, mem_ofList_iff]

theorem toList_injective {shape shape' : Shape} (h : shape.toList = shape'.toList) :
    shape = shape' := by
  induction shape using toList.induct generalizing shape' with
  | case1 =>
    cases shape' with
    | empty => rfl
    | field => cases h
  | case2 name kind rest ih =>
    cases shape' with
    | empty => cases h
    | field name' kind' rest' =>
      obtain ⟨hentry, hrest⟩ := List.cons.inj h
      cases hentry
      rw [ih hrest]

/-- Declarations with the same last ones give the same shape, not just one that finds the same. -/
theorem ofList_congr (h : ∀ name, lastDeclared? fields' name = lastDeclared? fields name) :
    ofList fields' = ofList fields := by
  have hmem : ∀ entry, entry ∈ (ofList fields').toList ↔ entry ∈ (ofList fields).toList := by
    rintro ⟨name, kind⟩
    rw [mem_ofList_iff, mem_ofList_iff, h]
  exact toList_injective
    (List.Pairwise.eq_of_mem_iff (sorted_ofList fields') (sorted_ofList fields) hmem)

theorem get?_ofList (fields : List (String × FieldKind)) (name : String) :
    (ofList fields).get? name = (lastDeclared? fields name).map fun kind => (name, kind) := by
  ext ⟨declared, kind⟩
  rw [(sorted_ofList fields).get?_eq_some_iff, mem_ofList_iff, Option.map_eq_some_iff]
  constructor
  · rintro ⟨rfl, hlast⟩
    exact ⟨kind, hlast, rfl⟩
  · rintro ⟨kind', hlast, heq⟩
    cases heq
    exact ⟨rfl, hlast⟩

/-- The least name in byte order is found of those that differ in letter case only, whatever the
order of declaration. -/
theorem getIgnoringCase?_ofList_iff :
    (ofList fields).getIgnoringCase? name = some (declared, kind) ↔
      lastDeclared? fields declared = some kind ∧
        (declared = name ∨ name ∉ fields.map Prod.fst ∧ sameIgnoringCase declared name = true ∧
          ∀ other ∈ fields.map Prod.fst, sameIgnoringCase other name = true →
            bytes declared ≤ bytes other) := by
  have hlookup : (ofList fields).lookup false name = some (declared, kind) ↔
      (ofList fields).Finds false name declared kind := (sorted_ofList fields).lookup_eq_some_iff
  have hnone : (∀ kind, (name, kind) ∉ (ofList fields).toList) ↔ name ∉ fields.map Prod.fst := by
    rw [← name_mem_ofList_iff]
    simp
  have hleast : (∀ entry ∈ (ofList fields).toList, sameIgnoringCase entry.1 name = true →
      declared ≤ entry.1) ↔ ∀ other ∈ fields.map Prod.fst, sameIgnoringCase other name = true →
        bytes declared ≤ bytes other := by
    constructor
    · intro h other hother hsame
      obtain ⟨entry, hentry, rfl⟩ := List.mem_map.mp (name_mem_ofList_iff.mpr hother)
      exact bytes_le_iff.mpr (h entry hentry hsame)
    · intro h entry hentry hsame
      have hname := name_mem_ofList_iff.mp (List.mem_map_of_mem hentry)
      exact bytes_le_iff.mp (h entry.1 hname hsame)
  rw [← hnone, ← hleast, ← mem_ofList_iff]
  refine hlookup.trans ⟨?found, ?finds⟩
  case found =>
    rintro (hmem | ⟨_, hnone, hmem, hsame, hleast⟩)
    · exact ⟨hmem, .inl rfl⟩
    · exact ⟨hmem, .inr ⟨hnone, hsame, hleast⟩⟩
  case finds =>
    rintro ⟨hmem, rfl | ⟨hnone, hsame, hleast⟩⟩
    · exact .exact hmem
    · exact .ignoringCase rfl hnone hmem hsame hleast

/-- What a shape is after fields have been declared one after the other. -/
structure KeepsLast (shape : Shape) (fields : List (String × FieldKind)) : Prop where
  get? : ∀ name, shape.get? name = (lastDeclared? fields name).map fun kind => (name, kind)
  kinds : ∀ name kind, (name, kind) ∈ shape.toList ↔ lastDeclared? fields name = some kind
  names : ∀ name, name ∈ shape.toList.map Prod.fst ↔ name ∈ fields.map Prod.fst
  /-- No name is listed twice, since none is less than itself. -/
  inOrder : (shape.toList.map Prod.fst).Pairwise fun a b => bytes a < bytes b
  /-- A name is found as it is declared, or else the least of those that differ in case only. -/
  getIgnoringCase? : ∀ name declared kind,
    shape.getIgnoringCase? name = some (declared, kind) ↔
      lastDeclared? fields declared = some kind ∧
        (declared = name ∨ name ∉ fields.map Prod.fst ∧ sameIgnoringCase declared name = true ∧
          ∀ other ∈ fields.map Prod.fst, sameIgnoringCase other name = true →
            bytes declared ≤ bytes other)

/-- By induction on the declarations, each one takes the place of the earlier ones of its name. -/
theorem keepsLast_ofList (fields : List (String × FieldKind)) :
    (ofList fields).KeepsLast fields where
  get? := get?_ofList fields
  kinds _ _ := mem_ofList_iff
  names _ := name_mem_ofList_iff
  inOrder := by
    simp only [List.pairwise_map, bytes_lt_iff]
    exact sorted_ofList fields
  getIgnoringCase? _ _ _ := getIgnoringCase?_ofList_iff

/-- Of all declarations of a name the last one counts, and nothing else in the order of the
declarations matters: where each name was last declared with the same kind, every name is looked up,
every path is resolved and every condition is compiled in the same way. -/
theorem ofList_keeps_last_declarations (fields : List (String × FieldKind)) :
    (ofList fields).KeepsLast fields ∧
    ∀ fields', (∀ name, lastDeclared? fields' name = lastDeclared? fields name) →
      (∀ caseSensitive name, (ofList fields').lookup caseSensitive name =
        (ofList fields).lookup caseSensitive name) ∧
      (∀ caseSensitive path span, resolveField caseSensitive (ofList fields') path span =
        resolveField caseSensitive (ofList fields) path span) ∧
      ∀ options, ∀ n : Condition, n.compile options (ofList fields') =
        n.compile options (ofList fields) := by
  refine ⟨keepsLast_ofList fields, fun fields' h => ?_⟩
  rw [ofList_congr h]
  exact ⟨fun _ _ => rfl, fun _ _ _ => rfl, fun _ _ => rfl⟩

/-- Names that differ in case only, declared several times and in two orders. -/
theorem ofList_keeps_last_declarations_of_similar_names :
    let fields : List (String × FieldKind) :=
      [("name", .number), ("Name", .string), ("name", .date)]
    let fields' : List (String × FieldKind) :=
      [("Name", .boolean), ("name", .date), ("Name", .string)]
    (∀ name, lastDeclared? fields' name = lastDeclared? fields name) ∧
    (ofList fields).get? "name" = some ("name", .date) ∧
    (ofList fields).getIgnoringCase? "NAME" = some ("Name", .string) ∧
    ∀ options, ∀ n : Condition, n.compile options (ofList fields') =
      n.compile options (ofList fields) := by
  intro fields fields'
  have hlast : ∀ name, lastDeclared? fields' name = lastDeclared? fields name := by
    intro name
    by_cases hlower : name = "name"
    · subst hlower
      rfl
    by_cases hupper : name = "Name"
    · subst hupper
      rfl
    simp [lastDeclared?, fields, fields', List.lookup_cons, beq_eq_false_iff_ne.mpr hlower,
      beq_eq_false_iff_ne.mpr hupper]
  obtain ⟨hkeeps, hsame⟩ := ofList_keeps_last_declarations fields
  obtain ⟨_, _, hcompile⟩ := hsame fields' hlast
  refine ⟨hlast, hkeeps.get? "name", ?_, hcompile⟩
  exact (hkeeps.getIgnoringCase? "NAME" "Name" .string).mpr
    ⟨rfl, .inr ⟨by decide, by decide, by decide⟩⟩

end Shape
end RecordFilter
