import RecordFilter.Proofs.Seams

/-!
Strings in quotes. Inside a string a backslash together with a quote or a backslash behind it is one
stroke, and so is every other character. The first quote that is a stroke of its own ends the
string. A written string has no such quote before its last one, so no content can end it early.
-/
namespace RecordFilter

inductive Stroke where
  | plain (c : Char)
  | escaped (c : Char)
  deriving DecidableEq

namespace Stroke

def text : Stroke → List Char
  | plain c => [c]
  | escaped c => ['\\', c]

def char : Stroke → Char
  | plain c | escaped c => c

def quote : Stroke := plain '"'

end Stroke

/-- The strokes of a text from left to right. -/
def strokes : List Char → List Stroke
  | [] => []
  | '\\' :: '"' :: rest => .escaped '"' :: strokes rest
  | '\\' :: '\\' :: rest => .escaped '\\' :: strokes rest
  | c :: rest => .plain c :: strokes rest

/-- The first stroke is read, and the rest of the strokes are those of the rest of the text. -/
theorem strokes_cons {text : List Char} {stroke : Stroke} {more : List Stroke}
    (h : strokes text = stroke :: more) :
    ∃ rest, text = stroke.text ++ rest ∧ strokes rest = more ∧
      readQuoted text = if stroke = .quote then some ([], 1) else (readQuoted rest).map fun found =>
        (stroke.char :: found.1, found.2 + stroke.text.length) := by
  revert h
  fun_cases strokes text with
  | case1 => nofun
  | case2 rest | case3 rest =>
    intro h
    cases h
    exact ⟨rest, rfl, rfl, rfl⟩
  | case4 c rest hescapedQuote hescapedSlash =>
    intro h
    cases h
    refine ⟨rest, rfl, rfl, ?_⟩
    by_cases hquote : c = '"'
    · subst hquote
      rfl
    · have hne : Stroke.plain c ≠ .quote := fun heq => hquote (Stroke.plain.inj heq)
      rw [if_neg hne, readQuoted.eq_5 c rest hquote hescapedQuote hescapedSlash]
      rfl

@[simp] theorem flatMap_strokes (text : List Char) : (strokes text).flatMap Stroke.text = text := by
  induction text using strokes.induct with
  | case1 => rfl
  | case2 rest ih | case3 rest ih => rw [strokes, List.flatMap_cons, ih]; rfl
  | case4 c rest hescapedQuote hescapedSlash ih =>
    rw [strokes.eq_4 c rest hescapedQuote hescapedSlash, List.flatMap_cons, ih]
    rfl

example : strokes "a\\\\\"b\\c".toList =
    [.plain 'a', .escaped '\\', .quote, .plain 'b', .plain '\\', .plain 'c'] := by decide

/-- A string that is closed has the characters that its strokes mean. -/
theorem readQuoted_closed {text : List Char} {before after : List Stroke}
    (h : strokes text = before ++ .quote :: after) (hbefore : .quote ∉ before) :
    readQuoted text = some (before.map Stroke.char, (before.flatMap Stroke.text).length + 1) := by
  induction before generalizing text with
  | nil =>
    obtain ⟨_, _, _, hread⟩ := strokes_cons h
    rw [hread, if_pos rfl]
    rfl
  | cons stroke before ih =>
    obtain ⟨rest, _, hrest, hread⟩ := strokes_cons h
    rw [List.mem_cons, not_or] at hbefore
    rw [hread, if_neg (Ne.symm hbefore.1), ih hrest hbefore.2]
    simp [Nat.add_comm, Nat.add_left_comm]

/-- Without a closing quote there is no string, however long the text is. -/
theorem readQuoted_open {text : List Char} (h : .quote ∉ strokes text) :
    readQuoted text = none := by
  induction hstrokes : strokes text generalizing text with
  | nil =>
    have htext := flatMap_strokes text
    rw [hstrokes] at htext
    rw [← htext]
    rfl
  | cons stroke more ih =>
    obtain ⟨rest, _, hrest, hread⟩ := strokes_cons hstrokes
    rw [hstrokes, List.mem_cons, not_or] at h
    rw [hread, if_neg (Ne.symm h.1), ih (hrest ▸ h.2) hrest]
    rfl

theorem readString_closed {text : List Char} {before after : List Stroke}
    (h : strokes text = before ++ .quote :: after) (hbefore : .quote ∉ before) :
    readString text =
      some (String.ofList (before.map Stroke.char), (before.flatMap Stroke.text).length + 1) := by
  rw [readString_eq, readQuoted_closed h hbefore]
  rfl

theorem readString_eq_none_iff {text : List Char} :
    readString text = none ↔ .quote ∉ strokes text := by
  constructor
  · intro hread hquote
    obtain ⟨before, after, hstrokes, hbefore⟩ := List.eq_append_cons_of_mem hquote
    rw [readString_closed hstrokes hbefore] at hread
    cases hread
  · intro hquote
    rw [readString_eq, readQuoted_open hquote]
    rfl

namespace CheckedVocabulary

/-- Whatever is expected, a quote opens a string. -/
theorem scanFrom_quote (v : CheckedVocabulary) (e : Expectancy) (offset : Nat) (text : List Char) :
    scanFrom v e offset ('"' :: text) =
      match readString text with
      | some (content, n) =>
        let stop := offset + byteSize ('"' :: text.take n)
        .ok ⟨.literal .string content, ⟨offset, stop⟩⟩ ::
          scanFrom v .connective stop (text.drop n)
      | none => [.error ⟨offset, .unterminatedString⟩] := by
  have hlexeme : readLexeme v e '"' text = match readString text with
      | some (content, n) => .ok (.literal .string content, n)
      | none => .error .unterminatedString := by
    rw [readLexeme, v.expectedLexeme?_reserved rfl]
    rfl
  rw [scanFrom_cons _ _ _ (List.dropWhile_cons_of_neg (by decide)), hlexeme]
  cases readString text with
  | none => rfl
  | some found => rfl

/-- A string takes the text up to its closing quote, and the scan goes on behind the quote. -/
theorem scanFrom_closed (v : CheckedVocabulary) (e : Expectancy) (offset : Nat) {content : String}
    {body after : List Char} (hread : readString (body ++ '"' :: after) =
      some (content, body.length + 1)) :
    let stop := offset + byteSize ('"' :: body ++ ['"'])
    scanFrom v e offset ('"' :: body ++ '"' :: after) =
      .ok ⟨.literal .string content, ⟨offset, stop⟩⟩ ::
        scanFrom v .connective stop after := by
  intro stop
  have hlength : body.length + 1 = (body ++ ['"']).length := by simp
  rw [List.cons_append, v.scanFrom_quote, hread, hlength, List.append_cons body '"' after]
  simp only [List.take_left, List.drop_left]
  rfl

end CheckedVocabulary

/-- A string ends at the first quote that is a stroke of its own, and its content is what the
strokes before this quote mean. Without such a quote it is refused where it begins. So a text that
is written as a string is read back as that string, whatever comes behind it. -/
theorem Vocabulary.scans_strings (v : CheckedVocabulary) (e : Expectancy) (offset : Nat) :
    (∀ text before after, strokes text = before ++ .quote :: after → .quote ∉ before →
      let content := String.ofList (before.map Stroke.char)
      let written := before.flatMap Stroke.text
      let stop := offset + byteSize ('"' :: written ++ ['"'])
      readString text = some (content, written.length + 1) ∧
        scanFrom v e offset ('"' :: text) =
          .ok ⟨.literal .string content, ⟨offset, stop⟩⟩ ::
            scanFrom v .connective stop (after.flatMap Stroke.text)) ∧
    (∀ text, (readString text = none ↔ .quote ∉ strokes text) ∧
      (scanFrom v e offset ('"' :: text) = [.error ⟨offset, .unterminatedString⟩] ↔
        .quote ∉ strokes text)) ∧
    ∀ content span rest,
      let written := Literal.write ⟨.string, content, span⟩
      let stop := offset + written.utf8ByteSize
      scanFrom v e offset (written.toList ++ rest) =
        .ok ⟨.literal .string content, ⟨offset, stop⟩⟩ :: scanFrom v .connective stop rest := by
  refine ⟨?closed, ?unclosed, ?written⟩
  case closed =>
    intro text before after hstrokes hbefore content written stop
    have hread : readString text = some (content, written.length + 1) :=
      readString_closed hstrokes hbefore
    refine ⟨hread, ?_⟩
    have htext : text = written ++ '"' :: after.flatMap Stroke.text := by
      rw [← flatMap_strokes text, hstrokes, List.flatMap_append, List.flatMap_cons]
      rfl
    rw [htext] at hread ⊢
    exact v.scanFrom_closed e offset hread
  case unclosed =>
    intro text
    refine ⟨readString_eq_none_iff, ?_⟩
    rw [← readString_eq_none_iff, v.scanFrom_quote]
    cases readString text with
    | none => simp
    | some found => simp
  case written =>
    intro content span rest written stop
    have hread := readString_guarded content.toList rest
    rw [String.ofList_toList] at hread
    have hwritten : written.toList = '"' :: content.toList.flatMap guarded ++ ['"'] :=
      String.toList_ofList
    have hstop : stop = offset + byteSize written.toList := by rw [← utf8ByteSize_eq]
    rw [hstop, hwritten, List.append_assoc]
    exact v.scanFrom_closed e offset hread

/-- A text that holds quotes, a connective and backslashes stays inside its string. -/
theorem Vocabulary.scans_string_of_quotes :
    let content := "\\\" || A == \"\\"
    let written := Literal.write ⟨.string, content, {}⟩
    written = "\"\\\\\\\" || A == \\\"\\\\\"" ∧
      (∀ rest, scanFrom .standard .operand 8 (written.toList ++ rest) =
        .ok ⟨.literal .string content, ⟨8, 27⟩⟩ :: scanFrom .standard .connective 27 rest) ∧
      scanFrom .standard .operand 8 "\"x\\\"".toList = [.error ⟨8, .unterminatedString⟩] := by
  intro content written
  obtain ⟨_, hunclosed, hwritten⟩ := scans_strings .standard .operand 8
  refine ⟨by decide, fun rest => ?_, (hunclosed "x\\\"".toList).2.mpr (by decide)⟩
  have hsize : 8 + written.utf8ByteSize = 27 := by decide +kernel
  rw [← hsize]
  exact hwritten content {} rest

end RecordFilter
