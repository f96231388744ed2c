import RecordFilter.Proofs.Places
import RecordFilter.Proofs.RoundTrip
import RecordFilter.Proofs.Runs
import RecordFilter.Proofs.Seams

/-!
Conditions in parentheses. No token of a text reaches over a reserved character, so the scan of a
text takes the same tokens when a parenthesis is put after it. Two texts in parentheses with a
connective between them are read as the groups of what they are read as alone.
-/
namespace RecordFilter

/-! Scans of texts in parentheses. -/

def Vocabulary.joined (v : Vocabulary) (op : LogicalOp) (left right : String) : String :=
  "(" ++ left ++ ") " ++ v.logicalWord op ++ " (" ++ right ++ ")"

section Parentheses

/-- What a scan takes of a text it takes again up to a reserved character after the text. -/
theorem Takes.scans_seam (v : CheckedVocabulary) {d : Char} (hd : isReserved d = true)
    (after : List Char) {e : Expectancy} {low : Nat} {text : List Char} {ts : List Token}
    (htakes : Takes v e low text ts) :
    ∃ e', Scans v e (text ++ d :: after) (ts.map Token.kind) e' (d :: after) := by
  induction htakes with
  | ended e low hgap => exact ⟨e, Scans.blanks hgap (Scans.refl _ _ _)⟩
  | @token e low start stop gap tail rest c kind ts hgap hc hread _ _ _ ih =>
    obtain ⟨e', hrest⟩ := ih
    have hwhole : readLexeme v e c (tail ++ (rest ++ d :: after)) =
        .ok (kind, tail.length) := by
      rw [← List.append_assoc]
      exact readLexeme_seam v (isBreak_of_reserved hd) hread after
    have hfirst := (Scans.lexeme hc hwhole).trans hrest
    refine ⟨e', ?_⟩
    rw [List.append_assoc]
    refine Scans.blanks hgap ?_
    simpa using hfirst

/-- In parentheses a text is scanned to the tokens of a group, whatever comes before and after: no
operator begins with a parenthesis, so it does not matter what the text leaves to be expected. -/
theorem scans_parenthesized (v : CheckedVocabulary) {text : String} {ts : List Token}
    {finish : Span} (htokens : tokens v text = .ok (ts ++ [⟨.endOfInput, finish⟩]))
    (after : List Char) :
    Scans v .field ('(' :: (text.toList ++ ')' :: after))
      (.openParen :: (ts.map Token.kind ++ [.closeParen])) .connective after := by
  have hparen : isReserved ')' = true := rfl
  obtain ⟨e', hinner⟩ := (takes_of_tokens v htokens).scans_seam v hparen after
  have hopen : Scans v .field ('(' :: (text.toList ++ ')' :: after)) [.openParen]
      .field (text.toList ++ ')' :: after) := Scans.punctuation rfl _ rfl
  have hclose : Scans v e' (')' :: after) [.closeParen] .connective after :=
    Scans.punctuation rfl after (v.expectedLexeme?_reserved hparen e' after)
  exact hopen.trans (hinner.trans hclose)

/-- Two texts in parentheses are scanned to their own tokens, with five more around and between
them. -/
theorem tokens_joined (v : CheckedVocabulary) (op : LogicalOp) {left right : String}
    {ts us : List Token} {finish finish' : Span}
    (hleft : tokens v left = .ok (ts ++ [⟨.endOfInput, finish⟩]))
    (hright : tokens v right = .ok (us ++ [⟨.endOfInput, finish'⟩])) :
    ∃ vs finish'', tokens v (Vocabulary.joined v op left right) =
        .ok (vs ++ [⟨.endOfInput, finish''⟩]) ∧
      vs.map Token.kind = .openParen :: (ts.map Token.kind ++ [.closeParen]) ++
        .logical op :: .openParen :: (us.map Token.kind ++ [.closeParen]) := by
  have hgroup := scans_parenthesized v hright []
  have hmiddle := (scans_logical v.readsConnectives op _).trans hgroup.blank
  have hscans := (scans_parenthesized v hleft _).trans hmiddle.blank
  refine tokens_of_scans (e := .connective) ?_
  simpa [Vocabulary.joined, Vocabulary.spelling] using hscans

end Parentheses

theorem Derives.join_groups {ts us : List Token} {l r : Condition} (op : LogicalOp)
    (hl : Derives (.whole .expression) ts l) (hr : Derives (.whole .expression) us r) :
    ∃ vs, Derives (.whole .expression) vs (.join op (.group l) (.group r)) := by
  have hjoin := Derives.join {} ((Derives.group {} {} hl).loosen op.layer.least_le_primary)
    ((Derives.group {} {} hr).loosen op.operandLayer.least_le_primary)
  exact ⟨_, hjoin.loosen (Nat.zero_le _)⟩

/-- Two texts that are conditions by themselves are read as two groups when they are put in
parentheses and joined, provided that they leave room below the height limit for a group and a
connective. Neither of them closes the parentheses around it or changes what is read of the
other. -/
theorem Condition.ofText_joined {configuration : Configuration} {left right : String}
    {l r : Condition}
    (hl : Condition.ofText configuration.vocabulary left = .ok l)
    (hr : Condition.ofText configuration.vocabulary right = .ok r) (op : LogicalOp) :
    let whole := Condition.ofText configuration.vocabulary
      (configuration.vocabulary.joined op left right)
    (l.height ≤ maxHeight - 2 ∧ r.height ≤ maxHeight - 2 →
      ∃ n, whole = .ok n ∧ n.bare = (Condition.join op (.group l) (.group r)).bare) ∧
    (¬ (l.height ≤ maxHeight - 2 ∧ r.height ≤ maxHeight - 2) →
      ∃ token, whole = .error (.grammar (Reader.tooHigh token))) := by
  intro whole
  obtain ⟨ts, finish, hts, _, hleft⟩ := tiles_of_ofText configuration.vocabulary hl
  obtain ⟨us, finish', hus, _, hright⟩ := tiles_of_ofText configuration.vocabulary hr
  obtain ⟨vs, finish'', hvs, hkinds⟩ := tokens_joined configuration.vocabulary op hts hus
  obtain ⟨ws, hjoined⟩ := hleft.join_groups op hright
  have hsame : vs.map Token.kind = ws.map Token.kind := by
    rw [hkinds, hjoined.kinds_eq, kinds_join, hleft.kinds_eq, hright.kinds_eq]
    rfl
  obtain ⟨n, hn, hbare⟩ := hjoined.respell hsame rfl
  have hheight : n.height = max (l.height + 1) (r.height + 1) + 1 := by
    rw [height_eq_of_bare_eq hbare, height_join]
    rfl
  have hlimit : maxHeight = 256 := rfl
  have hread := ofTokens_of_derives hn (show Reader.atEnd [⟨.endOfInput, finish''⟩] = true from rfl)
  constructor
  · rintro ⟨hlow, hlow'⟩
    obtain ⟨_, hok⟩ | ⟨hhigh, _⟩ := hread
    · exact ⟨n, ofText_eq_ok_iff.mpr ⟨_, hvs, hok⟩, hbare⟩
    · omega
  · intro hhigh
    obtain ⟨hlow, _⟩ | ⟨_, token, _, herror⟩ := hread
    · omega
    · refine ⟨token, ?_⟩
      simp only [whole]
      rw [ofText, hvs]
      change (Condition.ofTokens (vs ++ [⟨.endOfInput, finish''⟩])).mapError Failure.grammar = _
      rw [herror]
      rfl

/-- A parenthesis and a connective inside a string, a wide blank at the end, and a connective of the
same word as in the right text. -/
theorem Condition.ofText_joined_words :
    let settings : Settings := {
      spelling := {
        comparison := fun
          | .equals => "is"
          | .isIn => "in"
          | op => op.symbol
        logical := fun
          | .and => "and"
          | .or => "or" } }
    ∃ configuration l r n,
      Configuration.ofSettings? settings = .ok configuration ∧
      Condition.ofText configuration.vocabulary "A is* \") or B\"\u3000" = .ok l ∧
      Condition.ofText configuration.vocabulary "Price >= 5 or Days in [+1]" = .ok r ∧
      Condition.ofText configuration.vocabulary
        "(A is* \") or B\"\u3000) or (Price >= 5 or Days in [+1])" = .ok n ∧
      n.bare = (Condition.or (.group l) (.group r)).bare ∧
      n.text = "(A ==* \") or B\") || (Price >= 5 || Days ^^ [1])" := by
  intro settings
  have hok : (Configuration.ofSettings? settings).isOk = true := by decide +kernel
  obtain ⟨configuration, hconfiguration⟩ := exists_ok_of_isOk hok
  have hvocabulary := (Configuration.of_ofSettings? hconfiguration).2
  obtain ⟨l, hl, hleft⟩ := exists_ofText_eq settings.spelling "A is* \") or B\"\u3000"
    (fun n => (n.text, n.height)) ("A ==* \") or B\"", 1) (by decide +kernel)
  obtain ⟨r, hr, hright⟩ := exists_ofText_eq settings.spelling "Price >= 5 or Days in [+1]"
    (fun n => (n.text, n.height)) ("Price >= 5 || Days ^^ [1]", 2) (by decide +kernel)
  obtain ⟨hltext, hlheight⟩ := Prod.mk.inj hleft
  obtain ⟨hrtext, hrheight⟩ := Prod.mk.inj hright
  rw [← hvocabulary] at hl hr
  obtain ⟨n, hn, hbare⟩ := (ofText_joined hl hr .or).1
    ⟨by rw [hlheight]; decide, by rw [hrheight]; decide⟩
  have hwhole : configuration.vocabulary.joined .or "A is* \") or B\"\u3000"
      "Price >= 5 or Days in [+1]" =
        "(A is* \") or B\"\u3000) or (Price >= 5 or Days in [+1])" := by
    rw [hvocabulary, Vocabulary.ofSpelling_eq_inserted]
    decide +kernel
  rw [hwhole] at hn
  refine ⟨configuration, l, r, n, hconfiguration, hl, hr, hn, hbare, ?_⟩
  have hwritten := write_eq_of_bare_eq hbare .standard
  change n.text = "(" ++ l.text ++ ")" ++ " " ++ "||" ++ " " ++ ("(" ++ r.text ++ ")") at hwritten
  rw [hwritten, hltext, hrtext]
  decide +kernel

end RecordFilter
