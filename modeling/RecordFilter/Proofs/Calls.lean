import Mathlib.Order.Nat
import RecordFilter.Proofs.Reading

/-!
How many calls of the reader are nested. A reader that does not run out of the calls it is granted
comes to the same outcome with more of them. Three in each group are enough, since an operand takes
in tighter connectives than the one before it, and the groups are counted; so the calls that are
granted are enough for every list of tokens, and no smaller number is.
-/
namespace RecordFilter
namespace Reader

/-- Another reader comes to every outcome of this one that did not run out of calls. -/
def Outlasts (nested' nested : Nested) : Prop :=
  ∀ g least ts, nested g least ts ≠ .outOfCalls → nested' g least ts = nested g least ts

section

variable {nested nested' : Nested} {g least : Nat} {ts : List Token}

theorem Outlasts.eq {o : Outcome Sized} (h : Outlasts nested' nested)
    (hread : nested g least ts = o) (ho : o ≠ .outOfCalls) : nested' g least ts = o := by
  subst hread
  exact h g least ts ho

theorem Outlasts.primary {finish : Span} (h : Outlasts nested' nested)
    (hread : primary nested finish g ts ≠ .outOfCalls) :
    primary nested' finish g ts = primary nested finish g ts := by
  by_cases hparen : ∃ a us, ts = ⟨.openParen, a⟩ :: us
  · obtain ⟨a, us, rfl⟩ := hparen
    by_cases hopen : maxHeight ≤ g
    · simp only [Reader.primary, if_pos hopen]
    · have hinner : nested (g + 1) 0 us ≠ .outOfCalls := by
        intro hout
        simp only [Reader.primary, if_neg hopen, hout] at hread
        exact hread rfl
      simp only [Reader.primary, h _ _ _ hinner]
  · unfold Reader.primary
    split
    · exact absurd ⟨_, _, rfl⟩ hparen
    · rfl
    · rfl

theorem Outlasts.climb (h : Outlasts nested' nested) {more : Nat} {left : Sized}
    (hread : climb nested g least more left ts ≠ .outOfCalls) :
    climb nested' g least more left ts = climb nested g least more left ts := by
  induction more generalizing left ts with
  | zero => rfl
  | succ more ih =>
    by_cases hgo : GoesOn least ts
    · obtain ⟨op, s, us, rfl, hop⟩ := goesOn_cases least ts hgo
      obtain ⟨left, height⟩ := left
      cases hr : nested g (op.strength + 1) us with
      | outOfCalls =>
        simp only [Reader.climb, hr, if_neg (Nat.not_lt.mpr hop)] at hread
        exact absurd rfl hread
      | failed e rest g' =>
        have hr' := h.eq hr (by simp)
        rw [climb_failed hop hr, climb_failed hop hr']
      | done right rest =>
        obtain ⟨right, height'⟩ := right
        have hr' := h.eq hr (by simp)
        rw [climb_joined hop hr] at hread ⊢
        rw [climb_joined hop hr']
        split at hread
        · next hhigh => rw [if_pos hhigh, if_pos hhigh]
        · next hfits =>
          rw [if_neg hfits, if_neg hfits]
          exact ih hread
    · rw [climb_stop hgo, climb_stop hgo]

end

/-- More calls never change an outcome for which there were enough of them. -/
theorem condition_outlasts (finish : Span) (calls more : Nat) :
    Outlasts (condition finish (calls + more)) (condition finish calls) := by
  induction calls with
  | zero => exact fun _ _ _ hread => absurd rfl hread
  | succ calls ih =>
    intro g least ts hread
    rw [Nat.add_right_comm]
    cases hp : primary (condition finish calls) finish g ts with
    | outOfCalls =>
      simp only [condition, hp] at hread
      exact absurd rfl hread
    | failed e rest g' =>
      have hp' := (ih.primary (by simp [hp])).trans hp
      rw [condition_primary_failed hp, condition_primary_failed hp']
    | done left rest =>
      have hp' := (ih.primary (by simp [hp])).trans hp
      rw [condition_primary_done hp] at hread ⊢
      rw [condition_primary_done hp']
      exact ih.climb hread

/-- Reads as `read` does, with at most the given number of nested calls. Gives nothing if more are
needed. -/
def readWithin (calls : Nat) (r : Reader) : Option (Except GrammarError Condition × Reader) :=
  if atEnd r.pending then some (.error (errorAt r.finish .comparison r.pending), r)
  else match condition r.finish calls r.openGroups 0 r.pending with
    | .done (node, _) rest =>
      some (if atEnd rest then .ok node else .error (errorAt r.finish .connectiveOrEnd rest),
        { r with pending := rest })
    | .failed error rest openGroups => some (.error error, { r with pending := rest, openGroups })
    | .outOfCalls => none

section

variable {r : Reader} {calls : Nat}

theorem readWithin_outOfCalls (hstart : ¬ atEnd r.pending = true)
    (h : condition r.finish calls r.openGroups 0 r.pending = .outOfCalls) :
    r.readWithin calls = none := by
  rw [readWithin, if_neg hstart, h]

/-- The limit the reader comes with is one instance of the reader whose limit is a parameter. -/
theorem readWithin_callLimit (r : Reader) : r.readWithin callLimit = some r.read := by
  by_cases hstart : atEnd r.pending = true
  · rw [readWithin, if_pos hstart, read_atEnd hstart]
  rw [readWithin, if_neg hstart]
  cases hc : condition r.finish callLimit r.openGroups 0 r.pending with
  | outOfCalls => exact absurd hc (callLimit_suffices r.finish r.openGroups r.pending)
  | failed e rest g => rw [read_failed hstart hc]
  | done v rest => rw [read_done hstart hc]

theorem callLimit_enough (r : Reader) : r.readWithin callLimit ≠ none := by
  simp [readWithin_callLimit]

/-- Once the calls are enough, any further ones leave the result and the reader as they are. -/
theorem readWithin_more (h : r.readWithin calls ≠ none) (more : Nat) :
    r.readWithin (calls + more) = r.readWithin calls := by
  by_cases hstart : atEnd r.pending = true
  · rw [readWithin, readWithin, if_pos hstart, if_pos hstart]
  have hread : condition r.finish calls r.openGroups 0 r.pending ≠ .outOfCalls :=
    fun hout => h (readWithin_outOfCalls hstart hout)
  rw [readWithin, readWithin, condition_outlasts r.finish calls more _ _ _ hread]

/-- Calls that are enough are enough for the same outcome. -/
theorem readWithin_eq_read (h : r.readWithin calls ≠ none) :
    r.readWithin calls = some r.read := by
  calc r.readWithin calls
    _ = r.readWithin (calls + callLimit) := (readWithin_more h callLimit).symm
    _ = r.readWithin (callLimit + calls) := by rw [Nat.add_comm]
    _ = r.readWithin callLimit := readWithin_more r.callLimit_enough calls
    _ = some r.read := readWithin_callLimit r

end

/-- Whatever the tokens, and whether the reader is new or has been used, no more than three nested
calls are needed for each group that may be open, and three outside of all groups. With fewer calls
than are needed the reader runs out of them, and with as many or more it comes to the same
outcome. -/
theorem read_needs_bounded_calls (r : Reader) :
    ∃ needed ≤ 3 * (maxHeight + 1), ∀ calls,
      r.readWithin calls = if needed ≤ calls then some r.read else none := by
  classical
  have henough : ∃ calls, r.readWithin calls ≠ none := ⟨callLimit, r.callLimit_enough⟩
  refine ⟨Nat.find henough, Nat.find_min' henough r.callLimit_enough, fun calls => ?_⟩
  by_cases hcalls : Nat.find henough ≤ calls
  · obtain ⟨more, rfl⟩ := Nat.exists_eq_add_of_le hcalls
    have hneeded := Nat.find_spec henough
    rw [if_pos hcalls, readWithin_more hneeded, readWithin_eq_read hneeded]
  · rw [if_neg hcalls]
    by_contra hread
    exact hcalls (Nat.find_min' henough hread)

/-! The bound cannot be lowered. -/

def link (op : LogicalOp) (ts : List Token) : List Token :=
  ⟨.field "A", {}⟩ :: ⟨.comparison .equals false, {}⟩ :: ⟨.literal .number "1", {}⟩ ::
    ⟨.logical op, {}⟩ :: ts

/-- Groups inside one another, each as the last operand of a conjunction that is the last operand of
a disjunction. -/
def stacked : Nat → List Token
  | 0 => link .or (link .and [])
  | groups + 1 => link .or (link .and (⟨.openParen, {}⟩ :: stacked groups))

section

variable {finish : Span} {calls g least : Nat} {ts : List Token}

/-- A comparison and a connective in front use up one call of whatever comes after them. -/
theorem condition_link {op : LogicalOp} (hop : least ≤ op.strength)
    (h : condition finish calls g (op.strength + 1) ts = .outOfCalls) :
    condition finish (calls + 1) g least (link op ts) = .outOfCalls := by
  have hprimary : primary (condition finish calls) finish g (link op ts) =
      .done (.comparison ⟨"A", {}, .equals, false, .single ⟨.number, "1", {}⟩, {}⟩, 1)
        (⟨.logical op, {}⟩ :: ts) := rfl
  rw [condition_primary_done hprimary, List.length_cons]
  simp only [climb, if_neg (Nat.not_lt.mpr hop), h]

theorem condition_openParen (hopen : g < maxHeight)
    (h : condition finish calls (g + 1) 0 ts = .outOfCalls) (a : Span) :
    condition finish (calls + 1) g least (⟨.openParen, a⟩ :: ts) = .outOfCalls := by
  simp only [condition, primary, if_neg (Nat.not_le.mpr hopen), h]

/-- Each group on the stack takes three calls. -/
theorem condition_stacked (finish : Span) {groups g : Nat} (hopen : g + groups ≤ maxHeight) :
    condition finish (3 * groups + 2) g 0 (stacked groups) = .outOfCalls := by
  induction groups generalizing g with
  | zero => exact condition_link (by decide) (condition_link (by decide) rfl)
  | succ groups ih =>
    have hinner : condition finish (3 * groups + 2) (g + 1) 0 (stacked groups) = .outOfCalls :=
      ih (by omega)
    have hgroup : condition finish (3 * groups + 3) g 4 (⟨.openParen, {}⟩ :: stacked groups) =
        .outOfCalls := condition_openParen (by omega) hinner {}
    exact condition_link (by decide) (condition_link (by decide) hgroup)

end

theorem not_atEnd_stacked (groups : Nat) : ¬ atEnd (stacked groups) = true := by
  cases groups <;> exact Bool.false_ne_true

/-- Some tokens need all of the calls that are granted. -/
theorem callLimit_needed : ∃ ts, (ofTokens ts).readWithin (callLimit - 1) = none := by
  have hcalls : callLimit - 1 = 3 * maxHeight + 2 := rfl
  have hopen : 0 + maxHeight ≤ maxHeight := by omega
  rw [hcalls]
  exact ⟨stacked maxHeight,
    readWithin_outOfCalls (not_atEnd_stacked maxHeight) (condition_stacked _ hopen)⟩

end Reader
end RecordFilter
