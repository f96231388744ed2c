import RecordFilter.Json
import RecordFilter.Shape.Ordered

/-!
Shapes as JSON. A kind is an object that names it and holds what it is made of, or an array of the
name and that one part.
-/
namespace RecordFilter

/-- The names of kinds. -/
inductive KindTag where
  | string | number | boolean | date | enumeration | object | collection
  deriving DecidableEq

namespace KindTag

def all : List KindTag :=
  [.string, .number, .boolean, .date, .enumeration, .object, .collection]

def name : KindTag → String
  | .string => "string"
  | .number => "number"
  | .boolean => "boolean"
  | .date => "date"
  | .enumeration => "enum"
  | .object => "object"
  | .collection => "collection"

/-- The label of the part that a kind is made of. -/
def partLabel? : KindTag → Option String
  | .enumeration => some "variants"
  | .object => some "fields"
  | .collection => some "of"
  | .string | .number | .boolean | .date => none

/-- A kind is given by its name. Inside another kind its number in the list of kinds will do. -/
def ofJson? (inner : Bool) : Json → Option KindTag
  | .string s => all.find? fun tag => tag.name == s
  | .number text =>
    if inner then (all.zipIdx.find? fun entry => toString entry.2 == text).map Prod.fst else none
  | _ => none

/-- The part of a kind in its written form, if the kind has one. -/
def part? (tag : KindTag) : Json → Option (Option Json)
  | .object members =>
    match tag.partLabel? with
    | none => some none
    | some label => (Json.single? label members).map some
  | .array (_ :: rest) =>
    match tag.partLabel?, rest with
    | none, [] => some none
    | some _, [part] => some (some part)
    | _, _ => none
  | _ => none

def tagLabel : String := "type"

/-- The tag of a kind in its written form. -/
def ofKind? (inner : Bool) : Json → Option KindTag
  | .object members => (Json.single? tagLabel members).bind (ofJson? inner)
  | .array (tag :: _) => ofJson? inner tag
  | _ => none

/-- The kind of a tag, with the part that it is made of. -/
def write (tag : KindTag) (part : Option Json) : Json :=
  .object <| (tagLabel, .string tag.name) :: tag.partLabel?.toList.zip part.toList

end KindTag

/-- Declares the members of an object as fields. Of members with one name the last one counts, but
all of them have to be well written. -/
def Shape.ofMembers? (readKind : Json → Option FieldKind) (members : List (String × Json)) :
    Option Shape := do
  let fields ← members.mapM fun member => do return (member.1, ← readKind member.2)
  return ofList fields

/-- Reads a kind with at most the given number of kinds inside one another. -/
def FieldKind.ofJson? : Nat → Bool → Json → Option FieldKind
  | 0, _, _ => none
  | levels + 1, inner, j => do
    let tag ← KindTag.ofKind? inner j
    match tag, ← tag.part? j with
    | .string, none => some .string
    | .number, none => some .number
    | .boolean, none => some .boolean
    | .date, none => some .date
    | .enumeration, some part => part.texts?.map .enumeration
    | .object, some (.object members) =>
      (Shape.ofMembers? (ofJson? levels true) members).map .object
    | .collection, some part => (ofJson? levels true part).map .collection
    | _, _ => none

theorem exists_of_mem_mapM {α β : Type} {f : α → Option β} {xs : List α} {ys : List β}
    (h : xs.mapM f = some ys) {y : β} (hy : y ∈ ys) : ∃ x ∈ xs, f x = some y := by
  induction xs generalizing ys with
  | nil =>
    cases h
    cases hy
  | cons x xs ih =>
    simp only [List.mapM_cons, Option.bind_eq_bind, Option.bind_eq_some_iff, Option.pure_def,
      Option.some.injEq] at h
    obtain ⟨first, hfirst, more, hmore, rfl⟩ := h
    obtain rfl | hy := List.mem_cons.mp hy
    · exact ⟨x, List.mem_cons_self, hfirst⟩
    · obtain ⟨x', hx', hf⟩ := ih hmore hy
      exact ⟨x', List.mem_cons_of_mem _ hx', hf⟩

theorem Shape.ordered_of_ofMembers? {readKind : Json → Option FieldKind}
    (hread : ∀ j kind, readKind j = some kind → kind.Ordered) {members : List (String × Json)}
    {shape : Shape} (h : ofMembers? readKind members = some shape) : shape.Ordered := by
  simp only [ofMembers?, Option.bind_eq_bind, Option.bind_eq_some_iff, Option.pure_def,
    Option.some.injEq] at h
  obtain ⟨fields, hfields, rfl⟩ := h
  refine ordered_ofList fun entry hentry => ?_
  obtain ⟨member, _, hmember⟩ := exists_of_mem_mapM hfields hentry
  obtain ⟨kind, hkind, heq⟩ := Option.bind_eq_some_iff.mp hmember
  cases heq
  exact hread _ _ hkind

theorem FieldKind.ordered_of_ofJson? {levels : Nat} {inner : Bool} {j : Json} {kind : FieldKind}
    (h : FieldKind.ofJson? levels inner j = some kind) : kind.Ordered := by
  induction levels generalizing inner j kind with
  | zero => cases h
  | succ levels ih =>
    simp only [FieldKind.ofJson?, Option.bind_eq_bind, Option.bind_eq_some_iff] at h
    obtain ⟨tag, _, part, _, h⟩ := h
    split at h
    case h_1 | h_2 | h_3 | h_4 =>
      cases h
      trivial
    case h_5 =>
      obtain ⟨variants, _, rfl⟩ := Option.map_eq_some_iff.mp h
      trivial
    case h_6 =>
      obtain ⟨fields, hfields, rfl⟩ := Option.map_eq_some_iff.mp h
      exact (ordered_object_iff fields).mpr (Shape.ordered_of_ofMembers? (fun _ _ => ih) hfields)
    case h_7 =>
      obtain ⟨element, helement, rfl⟩ := Option.map_eq_some_iff.mp h
      exact (ordered_collection_iff element).mpr (ih helement)
    case h_8 => cases h

/-- Every shape that is read is in order on all levels. -/
def Shape.ofJson? (j : Json) : Option OrderedShape :=
  match j with
  | .object members =>
    if j.isSensible && j.depth ≤ Json.depthLimit then
      match _read : ofMembers? (FieldKind.ofJson? Json.depthLimit false) members with
      | some shape =>
        some ⟨shape, ordered_of_ofMembers? (fun _ _ => FieldKind.ordered_of_ofJson?) _read⟩
      | none => none
    else none
  | _ => none

mutual

def FieldKind.toJson : FieldKind → Json
  | .string => KindTag.string.write none
  | .number => KindTag.number.write none
  | .boolean => KindTag.boolean.write none
  | .date => KindTag.date.write none
  | .enumeration variants => KindTag.enumeration.write (some (.array (variants.map .string)))
  | .object fields => KindTag.object.write (some (.object fields.members))
  | .collection element => KindTag.collection.write (some element.toJson)

def Shape.members : Shape → List (String × Json)
  | .empty => []
  | .field name kind rest => (name, kind.toJson) :: rest.members

end

def Shape.toJson (shape : Shape) : Json := .object shape.members

end RecordFilter
