import RecordFilter.Proofs.Refusals

/-!
Reading on with a reader that has been used. A failure inside of a group leaves the group counted as
open, so the next condition is read with less room for groups of its own than in a new reader. It is
read in the same way up to the first group that is opened without room, and that group is refused.
-/
namespace RecordFilter

def TokenKind.IsPlain (kind : TokenKind) : Prop :=
  kind ≠ .openParen ∧ kind ≠ .closeParen ∧ kind ≠ .endOfInput

theorem DerivesLiterals.isPlain {ts : List Token} {ls : List Literal} (h : DerivesLiterals ts ls) :
    ∀ t ∈ ts, t.kind.IsPlain := by
  induction h with
  | last l => simp [TokenKind.IsPlain, Literal.token, Literal.tokenKind]
  | more l s h ih => simpa [TokenKind.IsPlain, Literal.token, Literal.tokenKind] using ih

theorem DerivesOperand.isPlain {op : CompareOp} {ts : List Token} {x : Operand} {s : Span}
    (h : DerivesOperand op ts x s) : ∀ t ∈ ts, t.kind.IsPlain := by
  cases h with
  | single l => simp [TokenKind.IsPlain, Literal.token, Literal.tokenKind]
  | noLiterals => simp [TokenKind.IsPlain]
  | literals a b hop hl =>
    have hliterals := hl.isPlain
    simp only [List.mem_cons, List.mem_append, List.not_mem_nil, or_false]
    rintro t (rfl | ht | rfl)
    · simp [TokenKind.IsPlain]
    · exact hliterals t ht
    · simp [TokenKind.IsPlain]

/-- A phrase that starts with a field is a comparison. -/
theorem Derives.isPlain {path : String} {a : Span} {ts : List Token} {n : Condition}
    (h : Derives (.whole .primary) (⟨.field path, a⟩ :: ts) n) : ∀ t ∈ ts, t.kind.IsPlain := by
  generalize hp : Phrase.whole Layer.primary = p at h
  generalize hts : ⟨.field path, a⟩ :: ts = us at h
  cases h with
  | comparison path' a' b op ic hop =>
    cases hts
    exact List.forall_mem_cons.mpr ⟨by simp [TokenKind.IsPlain], hop.isPlain⟩
  | group => cases hts
  | chain op => cases op <;> cases hp
  | stop | step => cases hp

namespace Reader

def crowded : Nat → List Token → Option Token
  | _, [] => none
  | room, ⟨.openParen, span⟩ :: ts =>
    match room with
    | 0 => some ⟨.openParen, span⟩
    | room + 1 => crowded room ts
  | room, ⟨.closeParen, _⟩ :: ts => crowded (room + 1) ts
  | room, _ :: ts => crowded room ts

theorem crowded_openParen (room : Nat) (a : Span) (ts : List Token) :
    crowded room (⟨.openParen, a⟩ :: ts) =
      if room = 0 then some ⟨.openParen, a⟩ else crowded (room - 1) ts := by
  cases room <;> rfl

theorem crowded_closeParen (room : Nat) (a : Span) (ts : List Token) :
    crowded room (⟨.closeParen, a⟩ :: ts) = crowded (room + 1) ts := rfl

theorem crowded_plain {t : Token} (ht : t.kind.IsPlain) (room : Nat) (ts : List Token) :
    crowded room (t :: ts) = crowded room ts := by
  obtain ⟨kind, span⟩ := t
  cases kind <;> first | rfl | simp [TokenKind.IsPlain] at ht

/-- As many groups are closed in the tokens as are opened, so that there is as much room after them
as before. -/
def Balanced (us : List Token) : Prop :=
  ∀ room vs, crowded room (us ++ vs) = (crowded room us).or (crowded room vs)

theorem balanced_nil : Balanced [] := fun _ _ => rfl

theorem Balanced.plain {t : Token} {us : List Token} (ht : t.kind.IsPlain) (h : Balanced us) :
    Balanced (t :: us) := by
  intro room vs
  rw [List.cons_append, crowded_plain ht, crowded_plain ht, h room vs]

theorem Balanced.append {us vs : List Token} (h : Balanced us) (h' : Balanced vs) :
    Balanced (us ++ vs) := by
  intro room ws
  rw [List.append_assoc, h room, h' room, h room, Option.or_assoc]

/-- A group closes what it opens. -/
theorem Balanced.group {us : List Token} (a b : Span) (h : Balanced us) :
    Balanced (⟨.openParen, a⟩ :: (us ++ [⟨.closeParen, b⟩])) := by
  intro room vs
  simp only [List.cons_append, List.append_assoc, List.nil_append, crowded_openParen]
  split
  · rfl
  · rw [h, h, crowded_closeParen, crowded_closeParen, Nat.sub_add_cancel (by omega)]
    simp [crowded]

theorem balanced_of_isPlain {us : List Token} (h : ∀ t ∈ us, t.kind.IsPlain) : Balanced us := by
  induction us with
  | nil => exact balanced_nil
  | cons t us ih =>
    obtain ⟨ht, hus⟩ := List.forall_mem_cons.mp h
    exact (ih hus).plain ht

/-- Where no group is opened there is room enough. -/
theorem crowded_of_isPlain {us : List Token} (h : ∀ t ∈ us, t.kind.IsPlain) (room : Nat) :
    crowded room us = none := by
  induction us with
  | nil => rfl
  | cons t us ih =>
    obtain ⟨ht, hus⟩ := List.forall_mem_cons.mp h
    rw [crowded_plain ht, ih hus]

def Consumes (ts us rest : List Token) : Prop := ts = us ++ rest ∧ ∀ t ∈ us, t.kind ≠ .endOfInput

theorem consumes_nil (ts : List Token) : Consumes ts [] ts := ⟨rfl, nofun⟩

theorem Consumes.cons {t : Token} {ts us rest : List Token} (ht : t.kind ≠ .endOfInput)
    (h : Consumes ts us rest) : Consumes (t :: ts) (t :: us) rest :=
  ⟨congrArg (t :: ·) h.1, List.forall_mem_cons.mpr ⟨ht, h.2⟩⟩

theorem Consumes.append {ts us vs rest rest' : List Token} (h : Consumes ts us rest)
    (h' : Consumes rest vs rest') : Consumes ts (us ++ vs) rest' := by
  obtain ⟨rfl, hus⟩ := h
  obtain ⟨rfl, hvs⟩ := h'
  exact ⟨by simp, List.forall_mem_append.mpr ⟨hus, hvs⟩⟩

/-- The outcome of a reader with little room, where another reader came to the first outcome: the
same, unless a group was opened without room. -/
def Unless (crowd : Option Token) (o o' : Outcome Sized) : Prop :=
  match crowd with
  | none => o' = o
  | some t => ∃ left g, o' = .failed (tooHigh t) left g

/-- The outcome consumes some of the tokens, and another reader, which has some more groups open,
comes to the same outcome unless it has no room for one of the groups in them. -/
def Outcome.Squeezed (more room : Nat) (ts : List Token) (o o' : Outcome Sized) : Prop :=
  match o with
  | .done v rest => ∃ us, Consumes ts us rest ∧ Balanced us ∧
      Unless (crowded room us) (.done v rest) o'
  | .failed e rest g => ∃ us, Consumes ts us rest ∧
      Unless (crowded room us) (.failed e rest (g + more)) o'
  | .outOfCalls => True

section

variable {more room : Nat} {us ts : List Token} {o o' : Outcome Sized}

/-- A failure is passed on as it is. -/
theorem Unless.pass_on {crowd : Option Token} {e : GrammarError} {rest : List Token} {g : Nat}
    (h : Unless crowd (.failed e rest g) o)
    (hfailed : ∀ e rest g, o = .failed e rest g → o' = .failed e rest g) :
    Unless crowd (.failed e rest g) o' := by
  cases crowd with
  | none => exact hfailed _ _ _ h
  | some t =>
    obtain ⟨left, g', h⟩ := h
    exact ⟨left, g', hfailed _ _ _ h⟩

/-- Reading goes on after a part. If there was room for the groups of the part, what comes next
decides; if not, it does not count any more. -/
theorem Outcome.Squeezed.after {v : Sized} {part next : Outcome Sized}
    (hus : ∀ t ∈ us, t.kind ≠ .endOfInput) (hbalanced : Balanced us)
    (hpart : Unless (crowded room us) (.done v ts) part) (hnext : o.Squeezed more room ts next)
    (hdone : part = .done v ts → o' = next)
    (hfailed : ∀ e rest g, part = .failed e rest g → o' = .failed e rest g) :
    o.Squeezed more room (us ++ ts) o' := by
  have hunless : ∀ {vs : List Token} {o : Outcome Sized}, Unless (crowded room vs) o next →
      Unless (crowded room (us ++ vs)) o o' := by
    intro vs o h
    rw [hbalanced room vs]
    cases hcrowd : crowded room us with
    | none =>
      rw [hcrowd] at hpart
      rwa [Option.none_or, hdone hpart]
    | some t =>
      rw [hcrowd] at hpart
      obtain ⟨left, g, hpart⟩ := hpart
      exact ⟨left, g, hfailed _ _ _ hpart⟩
  cases o with
  | done w rest =>
    obtain ⟨vs, hvs, hbalanced', h⟩ := hnext
    exact ⟨us ++ vs, .append ⟨rfl, hus⟩ hvs, hbalanced.append hbalanced', hunless h⟩
  | failed e rest g =>
    obtain ⟨vs, hvs, h⟩ := hnext
    exact ⟨us ++ vs, .append ⟨rfl, hus⟩ hvs, hunless h⟩
  | outOfCalls => trivial

theorem Unless.closing {crowd : Option Token} (finish a : Span) (g : Nat) (h : Unless crowd o o') :
    Unless crowd (closing finish a g o) (closing finish a g o') := by
  cases crowd with
  | none =>
    obtain rfl : o' = o := h
    rfl
  | some t =>
    obtain ⟨left, g', rfl⟩ := h
    exact ⟨left, g', rfl⟩

/-- Opening a group takes room for one from whatever is inside of it. -/
theorem Unless.openParen {left : List Token} {g : Nat} (a : Span)
    (h : Unless (crowded (room - 1) us) o o') :
    Unless (crowded room (⟨.openParen, a⟩ :: us)) o
      (if room = 0 then .failed (tooHigh ⟨.openParen, a⟩) left g else o') := by
  rw [crowded_openParen]
  split
  · exact ⟨left, g, rfl⟩
  · exact h

/-- What becomes of a group with little room is told by what becomes of its condition. -/
theorem closing_squeezed (finish a : Span) (g g' : Nat) (left : List Token)
    (h : o.Squeezed more (room - 1) ts o') :
    (closing finish a g o).Squeezed more room (⟨.openParen, a⟩ :: ts)
      (if room = 0 then .failed (tooHigh ⟨.openParen, a⟩) left g'
        else closing finish a (g + more) o') := by
  have hopen : (⟨.openParen, a⟩ : Token).kind ≠ .endOfInput := nofun
  cases o with
  | outOfCalls => trivial
  | failed e rest g'' =>
    obtain ⟨us, hus, hunless⟩ := h
    exact ⟨_, hus.cons hopen, (hunless.closing finish a (g + more)).openParen a⟩
  | done v rest =>
    obtain ⟨us, hus, hbalanced, hunless⟩ := h
    have hunless' := hunless.closing finish a (g + more)
    by_cases hclose : ∃ b rest', rest = ⟨.closeParen, b⟩ :: rest'
    · obtain ⟨b, rest, rfl⟩ := hclose
      obtain ⟨n, height⟩ := v
      have hconsumes := hus.append ((consumes_nil rest).cons (t := ⟨.closeParen, b⟩) nofun)
      have hcrowded : crowded (room - 1) (us ++ [⟨.closeParen, b⟩]) = crowded (room - 1) us := by
        rw [hbalanced, crowded_closeParen, crowded, Option.or_none]
      rw [← hcrowded] at hunless'
      simp only [closing_closed] at hunless' ⊢
      split at hunless'
      · next hheight =>
        rw [if_pos hheight]
        exact ⟨_, hconsumes.cons hopen, hunless'.openParen a⟩
      · next hheight =>
        rw [if_neg hheight]
        exact ⟨_, hconsumes.cons hopen, hbalanced.group a b, hunless'.openParen a⟩
    · have hother : ∀ g, closing finish a g (.done v rest) =
          .failed (errorAt finish .closingParen rest) rest g := fun g =>
        closing_unclosed finish a g v fun b more heq => hclose ⟨b, more, heq⟩
      rw [hother] at hunless' ⊢
      exact ⟨_, hus.cons hopen, hunless'.openParen a⟩

end

/-- Readers of one layer that differ in the groups that are open come to the same outcomes as far
as there is room. -/
def Squeezes (more : Nat) (nested : Nested) : Prop :=
  ∀ g least ts, (nested g least ts).Squeezed more (maxHeight - (g + more)) ts
    (nested (g + more) least ts)

section

variable {more : Nat} {nested : Nested} {finish : Span}

/-- A part whose tokens are all plain finds room in every reader. -/
theorem squeezed_failed {room : Nat} (us : List Token) {rest : List Token}
    (hus : ∀ t ∈ us, t.kind.IsPlain) (e : GrammarError) (g : Nat) :
    (Outcome.failed e rest g).Squeezed more room (us ++ rest) (.failed e rest (g + more)) := by
  refine ⟨us, ⟨rfl, fun t ht => (hus t ht).2.2⟩, ?_⟩
  rw [crowded_of_isPlain hus]
  rfl

theorem squeezed_done {room : Nat} (us : List Token) {rest : List Token}
    (hus : ∀ t ∈ us, t.kind.IsPlain) (v : Sized) :
    (Outcome.done v rest).Squeezed more room (us ++ rest) (.done v rest) := by
  refine ⟨us, ⟨rfl, fun t ht => (hus t ht).2.2⟩, balanced_of_isPlain hus, ?_⟩
  rw [crowded_of_isPlain hus]
  rfl

theorem group_squeezed (hnested : Squeezes more nested) (g : Nat) (a : Span) (ts : List Token) :
    (primary nested finish g (⟨.openParen, a⟩ :: ts)).Squeezed more (maxHeight - (g + more))
      (⟨.openParen, a⟩ :: ts) (primary nested finish (g + more) (⟨.openParen, a⟩ :: ts)) := by
  rw [primary_openParen, primary_openParen]
  by_cases hopen : maxHeight ≤ g
  · have hroom : maxHeight - (g + more) = 0 := by omega
    rw [if_pos hopen, if_pos (by omega), hroom]
    exact ⟨_, (consumes_nil ts).cons nofun, ts, g + more, rfl⟩
  · have hinner := hnested (g + 1) 0 ts
    have hroom : maxHeight - (g + 1 + more) = maxHeight - (g + more) - 1 := by omega
    rw [hroom, Nat.add_right_comm] at hinner
    have hclosing := closing_squeezed finish a g (g + more) ts hinner
    rw [if_neg hopen]
    simpa only [Nat.sub_eq_zero_iff_le] using hclosing

/-- A primary comes to the same outcome with little room, or opens one group too many, if a nested
condition does. -/
theorem primary_squeezed (finish : Span) (hnested : Squeezes more nested) (g : Nat)
    (ts : List Token) :
    (primary nested finish g ts).Squeezed more (maxHeight - (g + more)) ts
      (primary nested finish (g + more) ts) := by
  by_cases hopen : ∃ a us, ts = ⟨.openParen, a⟩ :: us
  · obtain ⟨a, us, rfl⟩ := hopen
    exact group_squeezed hnested g a us
  by_cases hfield : ∃ path a us, ts = ⟨.field path, a⟩ :: us
  · obtain ⟨path, a, us, rfl⟩ := hfield
    have hplain : (⟨.field path, a⟩ : Token).kind.IsPlain := by simp [TokenKind.IsPlain]
    cases hc : comparison path a us with
    | ok result =>
      obtain ⟨c, rest⟩ := result
      obtain ⟨vs, rfl, hvs, _⟩ := derives_of_comparison hc
      simp only [primary, hc]
      exact squeezed_done (_ :: vs) (List.forall_mem_cons.mpr ⟨hplain, hvs.isPlain⟩) _
    | error result =>
      obtain ⟨expected, rest⟩ := result
      obtain ⟨vs, rfl, ⟨ws, n, hn⟩, _⟩ := comparison_refused hc
      have hvs := (List.forall_mem_append.mp hn.isPlain).1
      simp only [primary, hc]
      exact squeezed_failed (_ :: vs) (List.forall_mem_cons.mpr ⟨hplain, hvs⟩) _ g
  have hother : ∀ g, primary nested finish g ts =
      .failed (errorAt finish .fieldOrGroup ts) ts g := by
    intro g
    unfold primary
    split
    · exact absurd ⟨_, _, rfl⟩ hopen
    · exact absurd ⟨_, _, _, rfl⟩ hfield
    · rfl
  rw [hother, hother]
  exact squeezed_failed [] (List.forall_mem_nil _) _ g

/-- A climb comes to the same outcome with little room, or opens one group too many, if its operands
do. -/
theorem climb_squeezed (hnested : Squeezes more nested) (g least links : Nat) (left : Sized)
    (ts : List Token) :
    (climb nested g least links left ts).Squeezed more (maxHeight - (g + more)) ts
      (climb nested (g + more) least links left ts) := by
  induction links generalizing left ts with
  | zero => exact squeezed_done [] (List.forall_mem_nil _) left
  | succ links ih =>
    by_cases hgo : GoesOn least ts
    · obtain ⟨op, s, ts, rfl, hop⟩ := goesOn_cases least ts hgo
      obtain ⟨left, height⟩ := left
      have hplain : (⟨.logical op, s⟩ : Token).kind.IsPlain := by simp [TokenKind.IsPlain]
      have hright := hnested g (op.strength + 1) ts
      cases hr : nested g (op.strength + 1) ts with
      | outOfCalls =>
        simp only [climb, hr, if_neg (Nat.not_lt.mpr hop)]
        trivial
      | failed e rest g' =>
        rw [climb_failed hop hr]
        rw [hr] at hright
        obtain ⟨us, hus, hunless⟩ := hright
        rw [← crowded_plain hplain] at hunless
        exact ⟨_, hus.cons hplain.2.2, hunless.pass_on fun _ _ _ => climb_failed hop⟩
      | done right rest =>
        obtain ⟨right, height'⟩ := right
        rw [climb_joined hop hr]
        rw [hr] at hright
        obtain ⟨us, ⟨rfl, hus⟩, hbalanced, hunless⟩ := hright
        rw [← crowded_plain hplain] at hunless
        refine .after (List.forall_mem_cons.mpr ⟨hplain.2.2, hus⟩) (hbalanced.plain hplain) hunless
          ?_ (climb_joined hop) fun _ _ _ => climb_failed hop
        split
        · exact squeezed_failed [] (List.forall_mem_nil _) _ g
        · exact ih _ rest
    · rw [climb_stop hgo, climb_stop hgo]
      exact squeezed_done [] (List.forall_mem_nil _) left

/-- By induction on the calls, only the groups still counted as open make a difference to what is
read. -/
theorem condition_squeezed (finish : Span) (more calls : Nat) :
    Squeezes more (condition finish calls) := by
  induction calls with
  | zero => exact fun _ _ _ => trivial
  | succ calls ih =>
    intro g least ts
    have hprimary := primary_squeezed finish ih g ts
    cases hp : primary (condition finish calls) finish g ts with
    | outOfCalls =>
      simp only [condition, hp]
      trivial
    | failed e rest g' =>
      rw [condition_primary_failed hp]
      rw [hp] at hprimary
      obtain ⟨us, hus, hunless⟩ := hprimary
      exact ⟨us, hus, hunless.pass_on fun _ _ _ => condition_primary_failed⟩
    | done left rest =>
      rw [condition_primary_done hp]
      rw [hp] at hprimary
      obtain ⟨us, ⟨rfl, hus⟩, hbalanced, hunless⟩ := hprimary
      exact .after hus hbalanced hunless (climb_squeezed ih g least rest.length left rest)
        condition_primary_done fun _ _ _ => condition_primary_failed

end

/-! A reader that is used several times. -/

def reads (r : Reader) : Nat → Reader
  | 0 => r
  | calls + 1 => (r.reads calls).read.2

/-- The last token that is left is the end of the input, and it is where the reader ends. -/
structure EndsAt (r : Reader) (span : Span) : Prop where
  last : r.pending.getLast? = some ⟨.endOfInput, span⟩
  finish : r.finish = span.after

variable {r : Reader} {span : Span} {ts us rest : List Token}

theorem Consumes.getLast?_eq (h : Consumes ts us rest)
    (hlast : ts.getLast? = some ⟨.endOfInput, span⟩) :
    rest.getLast? = some ⟨.endOfInput, span⟩ := by
  obtain ⟨rfl, hus⟩ := h
  rw [List.getLast?_append] at hlast
  cases hrest : rest.getLast? with
  | some t => rwa [hrest, Option.some_or] at hlast
  | none =>
    rw [hrest, Option.none_or] at hlast
    exact absurd rfl (hus _ (List.mem_of_getLast? hlast))

/-- No call of the reader goes past the end of the input. -/
theorem read_consumes (r : Reader) : ∃ us, Consumes r.pending us r.read.2.pending := by
  by_cases hstart : atEnd r.pending = true
  · rw [read_atEnd hstart]
    exact ⟨[], consumes_nil _⟩
  have hcondition := condition_squeezed r.finish 0 callLimit r.openGroups 0 r.pending
  cases hc : condition r.finish callLimit r.openGroups 0 r.pending with
  | outOfCalls => exact absurd hc (callLimit_suffices r.finish r.openGroups r.pending)
  | failed e rest g =>
    rw [read_failed hstart hc]
    rw [hc] at hcondition
    obtain ⟨us, hus, _⟩ := hcondition
    exact ⟨us, hus⟩
  | done v rest =>
    rw [read_done hstart hc]
    rw [hc] at hcondition
    obtain ⟨us, hus, _⟩ := hcondition
    exact ⟨us, hus⟩

theorem read_finish (r : Reader) : r.read.2.finish = r.finish := by
  unfold read
  split
  · rfl
  · split
    · split <;> rfl
    · rfl
    · rfl

theorem EndsAt.read (h : r.EndsAt span) : r.read.2.EndsAt span := by
  obtain ⟨us, hus⟩ := r.read_consumes
  exact ⟨hus.getLast?_eq h.last, r.read_finish.trans h.finish⟩

theorem endsAt_ofTokens (h : ts.getLast? = some ⟨.endOfInput, span⟩) :
    (ofTokens ts).EndsAt span := by
  refine ⟨h, ?_⟩
  rw [ofTokens, h]
  rfl

/-- However often it is called, the reader ends where it did. -/
theorem EndsAt.reads (h : r.EndsAt span) (calls : Nat) : (r.reads calls).EndsAt span := by
  induction calls with
  | zero => exact h
  | succ calls ih => exact ih.read

/-- A new reader for the tokens that are left differs in the open groups only. -/
theorem EndsAt.ofTokens_pending (h : r.EndsAt span) :
    ofTokens r.pending = { r with openGroups := 0 } := by
  rw [ofTokens, h.last, h.finish]
  rfl

/-- A used reader reads as a new one does, unless the new one opens a group for which the used one
has no room. -/
theorem EndsAt.read_again (h : r.EndsAt span) :
    ∃ used, r.pending = used ++ (ofTokens r.pending).read.2.pending ∧
      (crowded (maxHeight - r.openGroups) used = none →
        r.read.1 = (ofTokens r.pending).read.1) ∧
      ∀ t, crowded (maxHeight - r.openGroups) used = some t → r.read.1 = .error (tooHigh t) := by
  rw [h.ofTokens_pending]
  by_cases hstart : atEnd r.pending = true
  · rw [read_atEnd hstart, read_atEnd (r := { r with openGroups := 0 }) hstart]
    refine ⟨[], rfl, fun _ => rfl, fun t ht => ?_⟩
    cases ht
  have hcondition := condition_squeezed r.finish r.openGroups callLimit 0 0 r.pending
  rw [Nat.zero_add] at hcondition
  have hrefused : ∀ {crowd : Option Token} {o : Outcome Sized} (t : Token), crowd = some t →
      Unless crowd o (condition r.finish callLimit r.openGroups 0 r.pending) →
      r.read.1 = .error (tooHigh t) := by
    rintro _ o t rfl ⟨left, g, hfailed⟩
    rw [read_failed hstart hfailed]
  cases hc : condition r.finish callLimit 0 0 r.pending with
  | outOfCalls => exact absurd hc (callLimit_suffices r.finish 0 r.pending)
  | failed e rest g =>
    rw [hc] at hcondition
    obtain ⟨us, hus, hunless⟩ := hcondition
    rw [read_failed (r := { r with openGroups := 0 }) hstart hc]
    refine ⟨us, hus.1, fun hnone => ?_, fun t ht => hrefused t ht hunless⟩
    rw [hnone] at hunless
    rw [read_failed hstart hunless]
  | done v rest =>
    rw [hc] at hcondition
    obtain ⟨us, hus, _, hunless⟩ := hcondition
    rw [read_done (r := { r with openGroups := 0 }) hstart hc]
    refine ⟨us, hus.1, fun hnone => ?_, fun t ht => hrefused t ht hunless⟩
    rw [hnone] at hunless
    rw [read_done hstart hunless]

/-- After any number of readings, the next one gives what a new reader for the tokens that are left
gives, unless one of the groups that the new reader opens is one too many together with the groups
that failures have left open. Then that group is refused. -/
theorem reads_again (ts : List Token) {span : Span} (h : ts.getLast? = some ⟨.endOfInput, span⟩)
    (calls : Nat) :
    let r := (ofTokens ts).reads calls
    let new := (ofTokens r.pending).read
    ∃ used, r.pending = used ++ new.2.pending ∧
      (r.read.1 = new.1 ↔
        ∀ t, crowded (maxHeight - r.openGroups) used = some t → new.1 = .error (tooHigh t)) ∧
      ∀ t, crowded (maxHeight - r.openGroups) used = some t → r.read.1 = .error (tooHigh t) := by
  intro r new
  obtain ⟨used, hused, hroom, hcrowded⟩ := ((endsAt_ofTokens h).reads calls).read_again
  refine ⟨used, hused, ⟨fun hsame t ht => ?_, fun hrefused => ?_⟩, hcrowded⟩
  · rw [← hsame]
    exact hcrowded t ht
  · cases hcrowd : crowded (maxHeight - r.openGroups) used with
    | none => exact hroom hcrowd
    | some t => rw [hcrowded t hcrowd, hrefused t hcrowd]

/-- A group that is left open, and another one after it. -/
theorem reads_again_after_open_group :
    let ts : List Token := [⟨.openParen, ⟨0, 1⟩⟩, ⟨.field "A", ⟨1, 2⟩⟩, ⟨.openParen, ⟨3, 4⟩⟩,
      ⟨.field "B", ⟨4, 5⟩⟩, ⟨.comparison .equals false, ⟨6, 8⟩⟩, ⟨.literal .number "1", ⟨9, 10⟩⟩,
      ⟨.closeParen, ⟨10, 11⟩⟩, ⟨.endOfInput, ⟨11, 11⟩⟩]
    let r := (ofTokens ts).reads 1
    ts.getLast? = some ⟨.endOfInput, ⟨11, 11⟩⟩ ∧ r.openGroups = 1 ∧
      r.pending = ts.drop 2 ∧ r.read.1 = (ofTokens (ts.drop 2)).read.1 := by
  intro ts r
  have hlast : ts.getLast? = some ⟨.endOfInput, ⟨11, 11⟩⟩ := rfl
  refine ⟨hlast, rfl, rfl, ?_⟩
  obtain ⟨used, hused, hsame, _⟩ := reads_again ts hlast 1
  have hused : (ts.drop 2).take 5 ++ [⟨.endOfInput, ⟨11, 11⟩⟩] =
      used ++ [⟨.endOfInput, ⟨11, 11⟩⟩] := hused
  obtain rfl := List.append_cancel_right hused
  exact hsame.mpr nofun

/-- As many groups that are left open as may be, and another one after them. -/
theorem not_reads_again_after_open_groups :
    let equalsOne : List Token :=
      [⟨.field "B", {}⟩, ⟨.comparison .equals false, {}⟩, ⟨.literal .number "1", {}⟩]
    let ts : List Token := List.replicate 256 ⟨.openParen, {}⟩ ++
      [⟨.field "A", {}⟩, ⟨.comparison .equals false, {}⟩] ++
      ⟨.openParen, {}⟩ :: (equalsOne ++ [⟨.closeParen, {}⟩, ⟨.endOfInput, {}⟩])
    let r := (ofTokens ts).reads 1
    ts.getLast? = some ⟨.endOfInput, {}⟩ ∧
      (∃ n, (ofTokens r.pending).read.1 = .ok n) ∧
      r.read.1 = .error (tooHigh ⟨.openParen, {}⟩) := by
  intro equalsOne ts r
  exact ⟨by decide +kernel, exists_ok_of_isOk (by decide +kernel),
    error?_eq_some_iff.mp (by decide +kernel)⟩

end Reader
end RecordFilter
