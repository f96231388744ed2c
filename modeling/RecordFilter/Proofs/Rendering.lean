import RecordFilter.Proofs.Failures
import RecordFilter.Text.Lines
import RecordFilter.Text.Slice

/-!
How a failure is shown. The marker begins after all characters that end before the place of the
failure and is as long as what the failure is about. It can be drawn for every failure and every
text, whether or not the place is one of this text. It stands below the last line of the text,
so that it is under the place of the failure in a text of one line.
-/
namespace RecordFilter

/-! Characters in front of a byte. -/

structure Fills (limit : Nat) (front rest : List Char) : Prop where
  fits : byteSize front ≤ limit
  full : ∀ c ∈ rest.head?, limit < byteSize front + c.utf8Size

/-- Every text is filled up to any number of bytes, and the characters in front are the ones that
are counted. -/
theorem exists_fills (limit : Nat) (cs : List Char) :
    ∃ front rest, cs = front ++ rest ∧ Fills limit front rest ∧
      charsWithin limit cs = front.length := by
  induction cs generalizing limit with
  | nil => exact ⟨[], [], rfl, ⟨Nat.zero_le _, nofun⟩, rfl⟩
  | cons c cs ih =>
    by_cases hc : c.utf8Size ≤ limit
    · obtain ⟨front, rest, rfl, ⟨hfits, hfull⟩, hcount⟩ := ih (limit - c.utf8Size)
      refine ⟨c :: front, rest, rfl, ⟨?_, fun d hd => ?_⟩, ?_⟩
      · rw [byteSize_cons]
        omega
      · have := hfull d hd
        rw [byteSize_cons]
        omega
      · rw [charsWithin, if_pos hc, hcount, List.length_cons]
    · refine ⟨[], c :: cs, rfl, ⟨Nat.zero_le _, fun d hd => ?_⟩, ?_⟩
      · cases hd
        rw [byteSize_nil]
        omega
      · rw [charsWithin, if_neg hc, List.length_nil]

/-- Room behind the end of a text is not used. -/
theorem Fills.min_byteSize {limit : Nat} {front rest : List Char} (h : Fills limit front rest) :
    Fills (min limit (byteSize (front ++ rest))) front rest where
  fits := by
    have := h.fits
    rw [byteSize_append]
    omega
  full c hc := Nat.lt_of_le_of_lt (Nat.min_le_left _ _) (h.full c hc)

/-- A byte behind the front is inside of the next character or behind that. -/
theorem Fills.lastCut_eq {limit : Nat} {front rest : List Char} (h : Fills limit front rest) :
    lastCut (front ++ rest) limit = byteSize front := by
  induction limit with
  | zero => exact (Nat.le_zero.mp h.fits).symm
  | succ limit ih =>
    rw [lastCut]
    by_cases hlimit : byteSize front = limit + 1
    · rw [← hlimit, cutAt?_byteSize, Option.isSome_some, if_pos rfl]
    have hnone : cutAt? (limit + 1) (front ++ rest) = none := by
      rw [Option.eq_none_iff_forall_ne_some]
      rintro ⟨front', rest'⟩ hcut
      obtain ⟨htext, hsize⟩ := cutAt?_eq_some_iff.mp hcut
      obtain ⟨more, rfl, rfl⟩ := split_of_byteSize_le htext (hsize ▸ h.fits)
      cases more with
      | nil =>
        rw [List.append_nil] at hsize
        exact hlimit hsize.symm
      | cons c more =>
        have := h.full c rfl
        rw [byteSize_append, byteSize_cons] at hsize
        omega
    rw [hnone, Option.isSome_none, if_neg Bool.false_ne_true]
    have hfits := h.fits
    exact ih ⟨by omega, fun c hc => Nat.lt_of_succ_lt (h.full c hc)⟩

theorem slice?_of_covers {span : Span} {text piece : List Char} (h : span.Covers text piece) :
    slice? span.start span.stop text = some piece := by
  obtain ⟨before, after, rfl, rfl⟩ := h
  simp only [slice?, cutAt?_byteSize, Option.bind_eq_bind, Option.bind_some, Option.pure_def]

/-- The slice from one cut to another, or none of the text if the other one comes first. -/
theorem exists_slice {p rest q rest' : List Char} (h : p ++ rest = q ++ rest') :
    ∃ piece, slice? (byteSize p) (max (byteSize q) (byteSize p)) (p ++ rest) = some piece ∧
      piece.length = q.length - p.length := by
  obtain hle | hle := Nat.le_total (byteSize p) (byteSize q)
  · obtain ⟨more, rfl, rfl⟩ := split_of_byteSize_le h hle
    rw [Nat.max_eq_left hle]
    exact ⟨more, slice?_of_covers ⟨p, rest', by simp, rfl⟩, by simp⟩
  · obtain ⟨more, rfl, rfl⟩ := split_of_byteSize_le h.symm hle
    rw [Nat.max_eq_right hle]
    have hcovers : Span.Covers ⟨byteSize (q ++ more), byteSize (q ++ more)⟩
        (q ++ more ++ rest) [] := ⟨q ++ more, rest, by simp, by simp⟩
    exact ⟨[], slice?_of_covers hcovers, by simp⟩

def charsEndingBy (limit : Nat) (cs : List Char) : Nat :=
  (List.range cs.length).countP fun k => decide (byteSize (cs.take (k + 1)) ≤ limit)

theorem charsWithin_eq (limit : Nat) (cs : List Char) :
    charsWithin limit cs = charsEndingBy limit cs := by
  induction cs generalizing limit with
  | nil => rfl
  | cons c cs ih =>
    rw [charsEndingBy, List.length_cons, List.range_succ_eq_map, List.countP_cons,
      List.countP_map, charsWithin]
    by_cases hc : c.utf8Size ≤ limit
    · have hlater : ∀ k, c.utf8Size + byteSize (cs.take (k + 1)) ≤ limit ↔
          byteSize (cs.take (k + 1)) ≤ limit - c.utf8Size := by
        intro k
        omega
      simp [hc, ih, charsEndingBy, Function.comp_def, hlater]
    · have hlater : ∀ k, ¬ c.utf8Size + byteSize (cs.take (k + 1)) ≤ limit := by
        intro k
        omega
      simp [hc, Function.comp_def, hlater]

namespace Failure

/-- A failure as it is shown, with what is in front of its place and the place itself cut out of
the text. A place that is behind the end of the text, reversed or inside of a character is brought
into the text first. There is no result if a cut is made inside of a character. -/
def renderBySlices? (f : Failure) (source : String) : Option String := do
  let text := source.toList
  let start := lastCut text (min f.span.start (byteSize text))
  let stop := max (lastCut text (min f.span.stop (byteSize text))) start
  let before ← slice? 0 start text
  let marked ← slice? start stop text
  let marker := List.replicate before.length ' ' ++ List.replicate (max 1 marked.length) '^'
  return source ++ "\n" ++ String.ofList marker ++ "\n" ++ f.message

theorem renderBySlices?_eq (f : Failure) (source : String) :
    f.renderBySlices? source = some (f.render source) := by
  obtain ⟨p, rest, htext, hp, hindent⟩ := exists_fills f.span.start source.toList
  obtain ⟨q, rest', htext', hq, hstop⟩ := exists_fills f.span.stop source.toList
  have hstartCut : lastCut source.toList (min f.span.start (byteSize source.toList)) =
      byteSize p := by
    rw [htext]
    exact hp.min_byteSize.lastCut_eq
  have hstopCut : lastCut source.toList (min f.span.stop (byteSize source.toList)) =
      byteSize q := by
    rw [htext']
    exact hq.min_byteSize.lastCut_eq
  have hbefore : slice? 0 (byteSize p) source.toList = some p :=
    slice?_of_covers ⟨[], rest, htext, rfl⟩
  obtain ⟨marked, hmarked, hlength⟩ := exists_slice (htext.symm.trans htext')
  rw [← htext] at hmarked
  simp only [renderBySlices?, hstartCut, hstopCut, hbefore, hmarked, Option.bind_eq_bind,
    Option.bind_some, Option.pure_def, hlength]
  simp only [render, marker, width, indent, hindent, hstop]

theorem render_eq (f : Failure) (source : String) :
    f.render source = source ++ "\n" ++ String.ofList (List.replicate (f.indent source) ' ' ++
      List.replicate (f.width source) '^') ++ "\n" ++ f.message := rfl

theorem width_pos (f : Failure) (source : String) : 0 < f.width source := Nat.le_max_left _ _

/-- The marker never begins beyond the end of the source. -/
theorem indent_le (f : Failure) (source : String) : f.indent source ≤ source.length := by
  rw [← String.length_toList]
  exact charsWithin_le_length _ _

theorem indent_of_end_le {f : Failure} {source : String}
    (h : byteSize source.toList ≤ f.span.start) : f.indent source = source.length := by
  obtain ⟨front, rest, htext, hfills, hcount⟩ := exists_fills f.span.start source.toList
  rw [indent, hcount, ← String.length_toList, htext]
  cases rest with
  | nil => rw [List.append_nil]
  | cons c rest =>
    have := hfills.full c rfl
    rw [htext, byteSize_append, byteSize_cons] at h
    omega

/-- The marker ends at most one column behind the end of the source. -/
theorem indent_add_width_le (f : Failure) (source : String) :
    f.indent source + f.width source ≤ source.length + 1 := by
  have hindent := f.indent_le source
  have hstop := charsWithin_le_length f.span.stop source.toList
  rw [String.length_toList] at hstop
  rw [width]
  omega

theorem width_of_covers {f : Failure} {source : String} {piece : List Char} (hne : piece ≠ [])
    (h : f.span.Covers source.toList piece) : f.width source = piece.length := by
  obtain ⟨before, after, htext, hspan⟩ := h
  have hpos := List.length_pos_iff.mpr hne
  rw [width, indent, hspan, htext, charsWithin_boundary, List.append_assoc, charsWithin_boundary,
    List.length_append]
  omega

/-- Every failure can be shown with every text, also with one that it is not about: no character is
cut in two. Below the text there are as many spaces as characters end before the place of the
failure, then carets that reach at most one place behind the text. There are as many of them as the
failure is about characters, if its span covers some of this text. -/
theorem render_marks_place (f : Failure) (source : String) :
    f.renderBySlices? source = some (f.render source) ∧
    ∃ i w, f.render source = source ++ "\n" ++
        String.ofList (List.replicate i ' ' ++ List.replicate w '^') ++ "\n" ++ f.message ∧
      i = charsEndingBy f.span.start source.toList ∧
      (byteSize source.toList ≤ f.span.start → i = source.length) ∧
      1 ≤ w ∧ i + w ≤ source.length + 1 ∧
      ∀ piece ≠ [], f.span.Covers source.toList piece → w = piece.length := by
  refine ⟨f.renderBySlices?_eq source, f.indent source, f.width source, f.render_eq source,
    charsWithin_eq _ _, indent_of_end_le, f.width_pos source, f.indent_add_width_le source, ?_⟩
  intro piece hne hcovers
  exact width_of_covers hne hcovers

/-- A reversed span that starts inside of a letter. -/
example : (Failure.grammar ⟨.literal, .nothing, ⟨3, 1⟩⟩).marker "Größe" = "  ^".toList := by
  decide

/-! The line under the text. -/

theorem newline_not_mem_marker (f : Failure) (source : String) : '\n' ∉ f.marker source := by
  simp [marker]

/-- The lines of the text come first, the marker stands below the last of them. -/
theorem linesOf_render (f : Failure) (source : String) :
    linesOf (f.render source).toList =
      linesOf source.toList ++ f.marker source :: linesOf f.message.toList := by
  have hrender : (f.render source).toList =
      source.toList ++ '\n' :: (f.marker source ++ '\n' :: f.message.toList) := by
    simp [render]
  rw [hrender, linesOf_break, linesOf_break, linesOf_single (f.newline_not_mem_marker source),
    List.singleton_append]

def caretLine (column carets : Nat) : List Char :=
  List.replicate column ' ' ++ List.replicate carets '^'

theorem marker_eq (f : Failure) (source : String) :
    f.marker source = caretLine (f.indent source) (f.width source) := rfl

theorem column_eq_of_caretLine_eq {i j w v : Nat} (h : caretLine i w = caretLine j v) : i = j := by
  have hspaces := congrArg (List.count ' ') h
  simpa [caretLine, List.count_replicate] using hspaces

/-- The failure is shown with the lines of the text as they are and, directly below the line of a
spot, carets that begin in the column of the spot. -/
def Underlines (f : Failure) (source : String) (s : Spot) : Prop :=
  ∃ carets rest, 0 < carets ∧ linesOf (f.render source).toList =
    s.above ++ (s.front ++ s.back) :: caretLine s.front.length carets :: (s.below ++ rest)

/-- The marker is moved in by all characters before the place, those of earlier lines included. -/
theorem indent_eq_of_at {f : Failure} {source : String} {s : Spot}
    (hs : s.At f.span.start source.toList) : f.indent source = s.before.length := by
  obtain ⟨more, htext⟩ := hs.exists_eq_before_append
  rw [indent, hs.start_eq, htext, charsWithin_boundary]

/-- The carets stand below their place just if it is on the first line and every further line of the
source looks like the marker. -/
theorem underlines_iff {f : Failure} {source : String} {s : Spot}
    (hs : s.At f.span.start source.toList) :
    f.Underlines source s ↔ s.above = [] ∧ ∀ line ∈ s.below, line = f.marker source := by
  have hlines : ∀ carets rest, linesOf (f.render source).toList =
      s.above ++ (s.front ++ s.back) :: caretLine s.front.length carets :: (s.below ++ rest) ↔
      s.below ++ f.marker source :: linesOf f.message.toList =
        caretLine s.front.length carets :: (s.below ++ rest) := by
    intro carets rest
    rw [linesOf_render, hs.lines_eq, List.append_assoc, List.append_cancel_left_eq,
      List.cons_append, List.cons.injEq, and_iff_right rfl]
  have hcolumn : f.indent source = s.front.length ↔ s.above = [] := by
    rw [indent_eq_of_at hs, s.before_length_eq_iff]
  simp only [Underlines, hlines]
  constructor
  · rintro ⟨carets, rest, _, h⟩
    obtain ⟨hmarker, hbelow⟩ := exists_append_cons_eq_iff.mp ⟨rest, h⟩
    rw [marker_eq] at hmarker
    exact ⟨hcolumn.mp (column_eq_of_caretLine_eq hmarker), hbelow⟩
  · rintro ⟨habove, hbelow⟩
    have hmarker : f.marker source = caretLine s.front.length (f.width source) := by
      rw [marker_eq, hcolumn.mpr habove]
    obtain ⟨rest, h⟩ := exists_append_cons_eq_iff.mpr ⟨hmarker, hbelow⟩
    exact ⟨f.width source, rest, f.width_pos source, h⟩

section

variable {configuration : Configuration} {shape : Shape} {text : String} {f : Failure}

theorem within_of_ofText (h : Predicate.ofText configuration shape text = .error f) :
    f.span.Within text.toList := by
  obtain ⟨e, hscan, rfl⟩ | ⟨ts, e, hts, hgrammar, rfl⟩ | ⟨n, e, hn, hcompile, rfl⟩ :=
    Predicate.ofText_eq_error_iff.mp h
  · exact (@pointsAt_of_scan _ shape _ _ hscan).1
  · exact (@pointsAt_of_grammar _ shape _ _ hts _ hgrammar).1
  · exact (pointsAt_of_compile hn hcompile).1

/-- Whatever goes wrong with a text, the failure has a spot in it. The failure is underlined there
if the spot is in the first line and no other lines come below it, or only lines that look like the
marker; so it always is in a text of one line. It is not underlined in any other case, because the
marker stands below the last line and is indented by all that comes before the spot. -/
theorem underlines_of_ofText (h : Predicate.ofText configuration shape text = .error f) :
    (∃ s : Spot, s.At f.span.start text.toList) ∧
    (∀ s : Spot, s.At f.span.start text.toList →
      (f.Underlines text s ↔ s.above = [] ∧ ∀ line ∈ s.below, line = f.marker text)) ∧
    ('\n' ∉ text.toList → ∀ s : Spot, s.At f.span.start text.toList → f.Underlines text s) := by
  obtain ⟨⟨before, after, htext, hstart⟩, _⟩ := within_of_ofText h
  refine ⟨?_, fun s hs => underlines_iff hs, fun hline s hs => (underlines_iff hs).mpr ?_⟩
  · rw [htext, hstart]
    exact Spot.exists_at before after
  · obtain ⟨habove, hbelow⟩ := hs.of_single_line hline
    exact ⟨habove, by simp [hbelow]⟩

/-- A field that the shape does not have, in a text of one line. -/
theorem underlines_unknown_field :
    let shape : Shape := .field "Größe" .number .empty
    let text := "Größe == 1 && Höhe == 2"
    ∃ f, Configuration.ofSettings? {} = .ok {} ∧ Predicate.ofText {} shape text = .error f ∧
      ∃ s : Spot, s.At f.span.start text.toList ∧ s.front = "Größe == 1 && ".toList ∧
        f.Underlines text s := by
  intro shape text
  let f : Failure := .compile (.unknownField "Höhe" ⟨16, 21⟩)
  have h : Predicate.ofText {} shape text = .error f := by
    rw [Predicate.ofText_standard {} rfl]
    exact error?_eq_some_iff.mp (by decide +kernel)
  let s : Spot := ⟨[], "Größe == 1 && ".toList, "Höhe == 2".toList, []⟩
  have hs : s.At f.span.start text.toList := ⟨by decide +kernel, by decide +kernel⟩
  obtain ⟨_, _, hline⟩ := underlines_of_ofText h
  exact ⟨f, rfl, h, s, hs, rfl, hline (by decide) s hs⟩

/-- Such a field in the second line. The marker is indented by the first line too. -/
theorem not_underlines_second_line :
    let shape : Shape := .field "Title" .string .empty
    let text := "Title == \"a\" &&\nNope == 1"
    ∃ f, Configuration.ofSettings? {} = .ok {} ∧ Predicate.ofText {} shape text = .error f ∧
      f.marker text = "                ^^^^".toList ∧
      ∃ s : Spot, s.At f.span.start text.toList ∧ s.front = [] ∧ s.below = [] ∧
        ¬ f.Underlines text s := by
  intro shape text
  let f : Failure := .compile (.unknownField "Nope" ⟨16, 20⟩)
  have h : Predicate.ofText {} shape text = .error f := by
    rw [Predicate.ofText_standard {} rfl]
    exact error?_eq_some_iff.mp (by decide +kernel)
  let s : Spot := ⟨["Title == \"a\" &&".toList], [], "Nope == 1".toList, []⟩
  have hs : s.At f.span.start text.toList := ⟨by decide +kernel, by decide +kernel⟩
  refine ⟨f, rfl, h, by decide +kernel, s, hs, rfl, rfl, fun hunderlines => ?_⟩
  exact List.cons_ne_nil _ _ (underlines_iff hs |>.mp hunderlines).1

end

end Failure
end RecordFilter
