import RecordFilter.Failure
import RecordFilter.Outcome
import RecordFilter.Vocabulary.Check

/-!
From a filter text to its condition and on to its predicate.
-/
namespace RecordFilter

/-- The condition that a text spells. -/
def Condition.ofText (v : Vocabulary) (text : String) : Except Failure Condition := do
  let ts ← (tokens v text).mapError Failure.scan
  (Condition.ofTokens ts).mapError Failure.grammar

/-- The predicate of a condition under some settings. -/
def Settings.compile (settings : Settings) (shape : Shape) (condition : Condition) :
    Except Failure Predicate :=
  (condition.compile settings.compileOptions shape).mapError Failure.compile

/-- The predicate that a text spells. -/
def Predicate.ofText (configuration : Configuration) (shape : Shape) (text : String) :
    Except Failure Predicate := do
  let condition ← Condition.ofText configuration.vocabulary text
  configuration.settings.compile shape condition

theorem Condition.ofText_eq_ok_iff {v : Vocabulary} {text : String} {n : Condition} :
    Condition.ofText v text = .ok n ↔
      ∃ ts, tokens v text = .ok ts ∧ Condition.ofTokens ts = .ok n := by
  simp only [ofText, bind_eq_ok_iff, mapError_eq_ok_iff]

theorem Predicate.ofText_eq_ok_iff {configuration : Configuration} {shape : Shape} {text : String}
    {p : Predicate} :
    Predicate.ofText configuration shape text = .ok p ↔
      ∃ n, Condition.ofText configuration.vocabulary text = .ok n ∧
        n.compile configuration.settings.compileOptions shape = .ok p := by
  simp only [ofText, Settings.compile, bind_eq_ok_iff, mapError_eq_ok_iff]

/-- A text fails at the first stage that fails. -/
theorem Predicate.ofText_eq_error_iff {configuration : Configuration} {shape : Shape}
    {text : String} {f : Failure} :
    Predicate.ofText configuration shape text = .error f ↔
      (∃ e, tokens configuration.vocabulary text = .error e ∧ f = .scan e) ∨
      (∃ ts e, tokens configuration.vocabulary text = .ok ts ∧
        Condition.ofTokens ts = .error e ∧ f = .grammar e) ∨
      ∃ n e, Condition.ofText configuration.vocabulary text = .ok n ∧
        n.compile configuration.settings.compileOptions shape = .error e ∧ f = .compile e := by
  simp only [ofText, Condition.ofText, Settings.compile, bind_eq_error_iff, mapError_eq_error_iff,
    mapError_eq_ok_iff, or_assoc, eq_comm (b := f), exists_and_left]

end RecordFilter
