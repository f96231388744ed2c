import RecordFilter.Shape

/-!
Shapes in order. The fields of every object in a shape are in the order of their names, each name
once, however the shape was made. A shape that is read or declared carries the proof of this.
-/
namespace RecordFilter

mutual

/-- Kinds in which the fields of all objects are in the order of their names. -/
def FieldKind.Ordered : FieldKind → Prop
  | .object fields => fields.Ordered
  | .collection element => element.Ordered
  | .string | .number | .boolean | .date | .enumeration _ => True

def Shape.Ordered : Shape → Prop
  | .empty => True
  | .field name kind rest =>
    (∀ entry ∈ rest.toList, name < entry.1) ∧ kind.Ordered ∧ rest.Ordered

end

@[simp] theorem FieldKind.ordered_object_iff (fields : Shape) :
    (FieldKind.object fields).Ordered ↔ fields.Ordered := by rw [FieldKind.Ordered]

@[simp] theorem FieldKind.ordered_collection_iff (element : FieldKind) :
    (FieldKind.collection element).Ordered ↔ element.Ordered := by rw [FieldKind.Ordered]

theorem Shape.ordered_empty : Shape.empty.Ordered := by
  rw [Shape.Ordered]
  trivial

@[simp] theorem Shape.ordered_field_iff (name : String) (kind : FieldKind) (rest : Shape) :
    (Shape.field name kind rest).Ordered ↔
      (∀ entry ∈ rest.toList, name < entry.1) ∧ kind.Ordered ∧ rest.Ordered := by
  rw [Shape.Ordered]

namespace Shape

variable {shape : Shape} {name declared : String} {kind : FieldKind}

/-- The fields of the shape itself are in the order of their names, each name once. -/
def Sorted (shape : Shape) : Prop := shape.toList.Pairwise fun a b => a.1 < b.1

theorem sorted_empty : Shape.empty.Sorted := .nil

theorem ordered_iff :
    shape.Ordered ↔ shape.Sorted ∧ ∀ entry ∈ shape.toList, entry.2.Ordered := by
  induction shape using toList.induct with
  | case1 => exact ⟨fun _ => ⟨sorted_empty, nofun⟩, fun _ => ordered_empty⟩
  | case2 name kind rest ih =>
    rw [ordered_field_iff, ih, Sorted, Sorted, toList_field, List.pairwise_cons,
      List.forall_mem_cons]
    constructor
    · rintro ⟨hname, hkind, hrest, hkinds⟩
      exact ⟨⟨hname, hrest⟩, hkind, hkinds⟩
    · rintro ⟨⟨hname, hrest⟩, hkind, hkinds⟩
      exact ⟨hname, hkind, hrest, hkinds⟩

theorem Ordered.sorted (h : shape.Ordered) : shape.Sorted := (ordered_iff.mp h).1

theorem Ordered.kind_of_mem (h : shape.Ordered) (hmem : (name, kind) ∈ shape.toList) :
    kind.Ordered := (ordered_iff.mp h).2 _ hmem

/-! Declaring a field keeps the order, and leaves the fields of other names as they are. -/

theorem Sorted.mem_insert_iff (h : shape.Sorted) {entry : String × FieldKind} :
    entry ∈ (shape.insert name kind).toList ↔
      entry = (name, kind) ∨ entry.1 ≠ name ∧ entry ∈ shape.toList := by
  induction shape using toList.induct with
  | case1 => simp [insert]
  | case2 other otherKind rest ih =>
    obtain ⟨hother, hrest⟩ := List.pairwise_cons.mp h
    rw [insert]
    by_cases hlt : name < other
    · have hne : entry ∈ (Shape.field other otherKind rest).toList → entry.1 ≠ name := by
        rintro hmem rfl
        obtain rfl | hmem := List.mem_cons.mp hmem
        · exact String.lt_irrefl _ hlt
        · exact String.lt_asymm hlt (hother entry hmem)
      rw [if_pos hlt, toList_field, List.mem_cons, and_iff_right_of_imp hne]
    rw [if_neg hlt]
    by_cases heq : name = other
    · subst heq
      rw [if_pos rfl, toList_field, toList_field, List.mem_cons, List.mem_cons]
      constructor
      · rintro (hnew | hmem)
        · exact .inl hnew
        · exact .inr ⟨(String.ne_of_lt (hother entry hmem)).symm, .inr hmem⟩
      · rintro (hnew | ⟨hne, rfl | hmem⟩)
        · exact .inl hnew
        · exact absurd rfl hne
        · exact .inr hmem
    · rw [if_neg heq, toList_field, toList_field, List.mem_cons, List.mem_cons, ih hrest]
      constructor
      · rintro (rfl | hnew | ⟨hne, hmem⟩)
        · exact .inr ⟨Ne.symm heq, .inl rfl⟩
        · exact .inl hnew
        · exact .inr ⟨hne, .inr hmem⟩
      · rintro (hnew | ⟨hne, hother | hmem⟩)
        · exact .inr (.inl hnew)
        · exact .inl hother
        · exact .inr (.inr ⟨hne, hmem⟩)

theorem Sorted.insert (h : shape.Sorted) : (shape.insert name kind).Sorted := by
  induction shape using toList.induct with
  | case1 => exact List.pairwise_singleton _ _
  | case2 other otherKind rest ih =>
    have ⟨hother, hrest⟩ := List.pairwise_cons.mp h
    rw [Shape.insert]
    by_cases hlt : name < other
    · rw [if_pos hlt]
      refine .cons (fun entry hentry => ?_) h
      obtain rfl | hentry := List.mem_cons.mp hentry
      · exact hlt
      · exact String.lt_trans hlt (hother entry hentry)
    rw [if_neg hlt]
    by_cases heq : name = other
    · subst heq
      rw [if_pos rfl]
      exact .cons hother hrest
    · rw [if_neg heq]
      refine .cons (fun entry hentry => ?_) (ih hrest)
      obtain rfl | ⟨_, hentry⟩ := (Sorted.mem_insert_iff hrest).mp hentry
      · exact Std.lt_of_le_of_ne (String.not_lt.mp hlt) (Ne.symm heq)
      · exact hother entry hentry

theorem Ordered.insert (h : shape.Ordered) (hkind : kind.Ordered) :
    (shape.insert name kind).Ordered := by
  obtain ⟨hsorted, hkinds⟩ := ordered_iff.mp h
  refine ordered_iff.mpr ⟨hsorted.insert, fun entry hentry => ?_⟩
  obtain rfl | ⟨_, hentry⟩ := hsorted.mem_insert_iff.mp hentry
  · exact hkind
  · exact hkinds entry hentry

/-! Fields that are declared one after the other. -/

theorem sorted_ofList (fields : List (String × FieldKind)) : (ofList fields).Sorted :=
  List.foldlRecOn fields _ sorted_empty fun _ hshape _ _ => hshape.insert

theorem ordered_ofList {fields : List (String × FieldKind)}
    (h : ∀ entry ∈ fields, entry.2.Ordered) : (ofList fields).Ordered :=
  List.foldlRecOn fields _ ordered_empty fun _ hshape entry hentry =>
    hshape.insert (h entry hentry)

end Shape

/-- A shape in which the fields of all objects are in the order of their names. -/
structure OrderedShape where
  shape : Shape
  ordered : shape.Ordered

namespace OrderedShape

instance : Coe OrderedShape Shape := ⟨shape⟩

def ofList (fields : List (String × FieldKind)) (h : ∀ entry ∈ fields, entry.2.Ordered) :
    OrderedShape := ⟨.ofList fields, Shape.ordered_ofList h⟩

end OrderedShape

end RecordFilter
