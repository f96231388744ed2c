/-!
The order of texts. Comparing texts by their characters comes to the same as comparing the bytes of
their UTF-8 form.
-/
namespace RecordFilter

/-- The UTF-8 form of a text. -/
def bytes (s : String) : List UInt8 := s.toUTF8.data.toList

theorem bytes_eq_flatMap (s : String) : bytes s = s.toList.flatMap String.utf8EncodeChar := by
  rw [bytes, String.toUTF8_eq_toByteArray, ← s.ofList_toList, String.toByteArray_ofList,
    List.utf8Encode, List.data_toByteArray, String.toList_ofList]

/-- Bytes that are given as numbers. What comes later counts only if they are equal. -/
theorem ofNat_cons_lt {m n : Nat} {us vs : List UInt8} (hle : m ≤ n) (hn : n < 256)
    (h : m = n → us < vs) : UInt8.ofNat m :: us < UInt8.ofNat n :: vs := by
  obtain hlt | rfl := Nat.lt_or_eq_of_le hle
  · refine .rel (UInt8.lt_iff_toNat_lt.mpr ?_)
    rwa [UInt8.toNat_ofNat_of_lt' (Nat.lt_trans hlt hn), UInt8.toNat_ofNat_of_lt' hn]
  · exact .cons (h rfl)

/-- A character is less than another one already by the bytes of the two. The first byte tells how
many there are; among as many, it is the first digit, and the others are the digits that follow. -/
theorem utf8EncodeChar_append_lt {c d : Char} (h : c < d) (us vs : List UInt8) :
    String.utf8EncodeChar c ++ us < String.utf8EncodeChar d ++ vs := by
  have h : c.val.toNat < d.val.toNat := h
  have hd : d.val.toNat < 0x110000 := by
    obtain hlow | ⟨_, hhigh⟩ := d.valid <;> omega
  unfold String.utf8EncodeChar
  dsimp only
  generalize c.val.toNat = m at h
  generalize d.val.toNat = n at h hd
  repeat' split
  all_goals
    simp only [List.cons_append, List.nil_append]
    repeat' first | omega | refine ofNat_cons_lt (by omega) (by omega) fun _ => ?_

theorem flatMap_utf8EncodeChar_lt {cs ds : List Char} (h : List.Lex (· < ·) cs ds) :
    cs.flatMap String.utf8EncodeChar < ds.flatMap String.utf8EncodeChar := by
  induction h with
  | @nil d ds =>
    obtain ⟨b, bs, hd⟩ := List.exists_cons_of_ne_nil (String.utf8EncodeChar_ne_nil (c := d))
    rw [List.flatMap_cons, hd]
    exact .nil
  | rel h => exact utf8EncodeChar_append_lt h _ _
  | cons _ ih => exact List.append_left_lt ih

theorem bytes_lt_of_lt {s t : String} (h : s < t) : bytes s < bytes t := by
  rw [bytes_eq_flatMap, bytes_eq_flatMap]
  exact flatMap_utf8EncodeChar_lt h

theorem bytes_lt_iff {s t : String} : bytes s < bytes t ↔ s < t := by
  refine ⟨fun h => Decidable.byContradiction fun hle => ?_, bytes_lt_of_lt⟩
  by_cases heq : t = s
  · subst heq
    exact List.lt_irrefl _ h
  · exact List.lt_asymm h (bytes_lt_of_lt (Std.lt_of_le_of_ne (String.not_lt.mp hle) heq))

theorem bytes_le_iff {s t : String} : bytes s ≤ bytes t ↔ s ≤ t := by
  rw [← List.not_lt, bytes_lt_iff, String.not_lt]

end RecordFilter
