import RecordFilter.Outcome
import RecordFilter.Proofs.Reading

/-!
Where the reader refuses its tokens. Unless a condition gets too high, the reader fails at the first
token that cannot stand there: the tokens before it begin some condition, and no condition begins
with them and this one.
-/
namespace RecordFilter

/-- Some phrase of the layer begins with these tokens. -/
def Viable (layer : Layer) (ts : List Token) : Prop :=
  ∃ us n, Derives (.whole layer) (ts ++ us) n

theorem Derives.viable {layer : Layer} {ts : List Token} {n : Condition}
    (h : Derives (.whole layer) ts n) : Viable layer ts := ⟨[], n, by rwa [List.append_nil]⟩

namespace Viable

theorem loosen {layer layer' : Layer} {ts : List Token} (h : Viable layer' ts)
    (hle : layer.least ≤ layer'.least) : Viable layer ts := by
  obtain ⟨us, n, hn⟩ := h
  exact ⟨us, n, hn.loosen hle⟩

/-- A comparison with null can follow any field. -/
theorem field (path : String) (a : Span) : Viable .primary [⟨.field path, a⟩] :=
  ⟨_, _, .comparison path a {} .equals false (.single ⟨.null, "null", {}⟩ (by decide))⟩

theorem nil (layer : Layer) : Viable layer [] := by
  obtain ⟨us, n, hn⟩ := (field "A" {}).loosen layer.least_le_primary
  exact ⟨_, n, hn⟩

/-- What begins a condition begins a primary after an opening parenthesis. -/
theorem openParen (a : Span) {ts : List Token} (h : Viable .expression ts) :
    Viable .primary (⟨.openParen, a⟩ :: ts) := by
  obtain ⟨us, n, hn⟩ := h
  exact ⟨us ++ [⟨.closeParen, {}⟩], .group n, by simpa using Derives.group a {} hn⟩

/-- A chain may be gone on with by a connective and whatever begins an operand. -/
theorem logical {op : LogicalOp} {ts us : List Token} {left : Condition} (s : Span)
    (hleft : Derives (.whole op.layer) ts left) (h : Viable op.operandLayer us) :
    Viable op.layer (ts ++ ⟨.logical op, s⟩ :: us) := by
  obtain ⟨vs, right, hright⟩ := h
  exact ⟨vs, .join op left right, by simpa using hleft.join s hright⟩

end Viable

/-- The error is about the first of the tokens that are left, or about their end, and no condition
goes on in that way after the tokens before it. -/
def GrammarError.Refuses (e : GrammarError) (before : List Token) (finish : Span) :
    List Token → Prop
  | [] => e.found = .nothing ∧ e.span = finish ∧ ∀ n, ¬ Derives (.whole .expression) before n
  | t :: _ => e.found = .token t.kind ∧ e.span = t.span ∧
    (∀ after n, ¬ Derives (.whole .expression) (before ++ t :: after) n) ∧
    (t.kind = .endOfInput → ∀ n, ¬ Derives (.whole .expression) before n)

theorem goesOn_congr {least : Nat} {ts us : List Token} (h : ts.head? = us.head?) :
    GoesOn least ts ↔ GoesOn least us := by
  cases ts with
  | nil =>
    obtain rfl := List.head?_eq_none_iff.mp h.symm
    rfl
  | cons t ts =>
    obtain ⟨us, rfl⟩ := List.head?_eq_some_iff.mp h.symm
    obtain ⟨kind, span⟩ := t
    cases kind <;> rfl

namespace Reader

/-! A part is refused at the first token that cannot stand there, whatever comes after that. -/

section

variable {ts rest rest' : List Token} {expected : Expected}

theorem ne_cons_of_head? {t : Token} (hhead : rest'.head? = rest.head?)
    (h : ∀ more, rest ≠ t :: more) (more : List Token) : rest' ≠ t :: more := by
  rintro rfl
  obtain ⟨more', rfl⟩ := List.head?_eq_some_iff.mp hhead.symm
  exact h more' rfl

theorem head?_append_congr (us : List Token) (h : rest'.head? = rest.head?) :
    (us ++ rest').head? = (us ++ rest).head? := by
  rw [List.head?_append, List.head?_append, h]

theorem literals_at (h : ∀ kind text span more, ts ≠ ⟨.literal kind text, span⟩ :: more) :
    literals ts = .error (.literal, ts) := by
  rw [literals.eq_4]
  · exact fun kind text span close more => h kind text span (⟨.closeBracket, close⟩ :: more)
  · exact fun kind text span s more => h kind text span (⟨.comma, s⟩ :: more)
  · exact h

/-- A list is refused at a token before which it could have gone on, and only that token counts. -/
theorem literals_refused (h : literals ts = .error (expected, rest)) :
    ∃ us, ts = us ++ rest ∧ (∃ vs ls, DerivesLiterals (us ++ vs) ls) ∧
      ∀ rest', rest'.head? = rest.head? → literals (us ++ rest') = .error (expected, rest') := by
  induction ts using literals.induct with
  | case1 => simp [literals] at h
  | case2 kind text span s ts ih =>
    rw [literals] at h
    obtain ⟨us, rfl, ⟨vs, ls, hls⟩, hagain⟩ := ih (map_eq_error_iff.mp h)
    refine ⟨⟨.literal kind text, span⟩ :: ⟨.comma, s⟩ :: us, rfl,
      ⟨vs, _, .more ⟨kind, text, span⟩ s hls⟩, fun rest' hrest => ?_⟩
    simp only [List.cons_append, literals]
    rw [hagain rest' hrest]
    rfl
  | case3 kind text span ts hclose hcomma =>
    simp only [literals, Except.error.injEq, Prod.mk.injEq] at h
    obtain ⟨rfl, rfl⟩ := h
    refine ⟨[⟨.literal kind text, span⟩], rfl, ⟨[], _, .last ⟨kind, text, span⟩⟩,
      fun rest' hrest => ?_⟩
    rw [List.singleton_append, literals.eq_3]
    · exact fun close => ne_cons_of_head? hrest (hclose close)
    · exact fun s => ne_cons_of_head? hrest (hcomma s)
  | case4 ts _ _ hliteral =>
    rw [literals_at hliteral] at h
    cases h
    exact ⟨[], rfl, ⟨_, _, .last ⟨.null, "null", {}⟩⟩, fun rest' hrest =>
      literals_at fun kind text span => ne_cons_of_head? hrest (hliteral kind text span)⟩

theorem exists_derivesOperand (op : CompareOp) : ∃ vs x s, DerivesOperand op vs x s := by
  by_cases hop : op ∈ [CompareOp.isIn, .isNotIn]
  · exact ⟨_, _, _, .noLiterals {} {} hop⟩
  · exact ⟨_, _, _, .single ⟨.null, "null", {}⟩ hop⟩

theorem listOperand_refused {op : CompareOp} (hop : op.takesList = true)
    (h : operand op ts = .error (expected, rest)) :
    ∃ us, ts = us ++ rest ∧ (∃ vs x s, DerivesOperand op (us ++ vs) x s) ∧
      ∀ rest', rest'.head? = rest.head? →
        operand op (us ++ rest') = .error (expected, rest') := by
  simp only [operand, hop, if_true] at h
  split at h
  · cases h
  · next a ts hclose =>
    obtain ⟨us, rfl, ⟨vs, ls, hls⟩, hagain⟩ := literals_refused (map_eq_error_iff.mp h)
    have hlist := DerivesOperand.literals a {} (CompareOp.takesList_iff.mp hop) hls
    refine ⟨⟨.openBracket, a⟩ :: us, rfl, ⟨vs ++ [⟨.closeBracket, {}⟩], .list ls, a.union {},
      by simpa using hlist⟩, fun rest' hrest => ?_⟩
    have hclose' : ∀ close more, us ++ rest' ≠ ⟨.closeBracket, close⟩ :: more :=
      fun close => ne_cons_of_head? (head?_append_congr us hrest) (hclose close)
    simp only [operand, hop, if_true, List.cons_append, hagain rest' hrest, Except.map]
  · next hopen =>
    cases h
    refine ⟨[], rfl, exists_derivesOperand op, fun rest' hrest => ?_⟩
    have hopen' := fun a => ne_cons_of_head? hrest (hopen a)
    simp only [operand, hop, if_true, List.nil_append]
    split
    · exact absurd rfl (hopen' _ _)
    · exact absurd rfl (hopen' _ _)
    · rfl

theorem singleOperand_refused {op : CompareOp} (hop : ¬ op.takesList = true)
    (h : operand op ts = .error (expected, rest)) :
    ∃ us, ts = us ++ rest ∧ (∃ vs x s, DerivesOperand op (us ++ vs) x s) ∧
      ∀ rest', rest'.head? = rest.head? →
        operand op (us ++ rest') = .error (expected, rest') := by
  simp only [operand, if_neg hop] at h
  split at h
  · cases h
    refine ⟨[], rfl, exists_derivesOperand op, fun rest' hrest => ?_⟩
    obtain ⟨more, rfl⟩ := List.head?_eq_some_iff.mp hrest
    simp [operand, hop]
  · cases h
  · next hopen hliteral =>
    cases h
    refine ⟨[], rfl, exists_derivesOperand op, fun rest' hrest => ?_⟩
    simp only [operand, if_neg hop, List.nil_append]
    split
    · next a more => exact absurd rfl (ne_cons_of_head? hrest (hopen a) more)
    · next kind text span more =>
      exact absurd rfl (ne_cons_of_head? hrest (hliteral kind text span) more)
    · rfl

/-- An operand is refused at a token before which it could have gone on, and only that token counts.
Brackets are asked of membership alone. -/
theorem operand_refused {op : CompareOp} (h : operand op ts = .error (expected, rest)) :
    ∃ us, ts = us ++ rest ∧ (∃ vs x s, DerivesOperand op (us ++ vs) x s) ∧
      ∀ rest', rest'.head? = rest.head? →
        operand op (us ++ rest') = .error (expected, rest') := by
  by_cases hop : op.takesList = true
  · exact listOperand_refused hop h
  · exact singleOperand_refused hop h

theorem comparison_refused {path : String} {a : Span}
    (h : comparison path a ts = .error (expected, rest)) :
    ∃ us, ts = us ++ rest ∧ Viable .primary (⟨.field path, a⟩ :: us) ∧
      ∀ rest', rest'.head? = rest.head? →
        comparison path a (us ++ rest') = .error (expected, rest') := by
  unfold comparison at h
  split at h
  · next op ic b ts =>
    obtain ⟨us, rfl, ⟨vs, x, s, hx⟩, hagain⟩ := operand_refused (map_eq_error_iff.mp h)
    refine ⟨⟨.comparison op ic, b⟩ :: us, rfl, ⟨vs, _, .comparison path a b op ic hx⟩,
      fun rest' hrest => ?_⟩
    simp only [comparison, List.cons_append, hagain rest' hrest, Except.map]
  · next hop =>
    cases h
    refine ⟨[], rfl, .field path a, fun rest' hrest => ?_⟩
    have hop' := fun op ic b => ne_cons_of_head? hrest (hop op ic b)
    simp only [comparison, List.nil_append]

end

/-! How a part is read, or refused, is decided by the tokens up to the next one that is left. -/

/-- The outcome leaves some of the tokens, and another reader comes to the same outcome whenever
the first of them stays the same. -/
def Outcome.Decided (ts : List Token) (again : List Token → Outcome Sized → Prop) :
    Outcome Sized → Prop
  | .done v rest => ∃ us, ts = us ++ rest ∧ ∀ rest', rest'.head? = rest.head? →
      again (us ++ rest') (.done v rest')
  | .failed e rest g => ∃ us, ts = us ++ rest ∧ ∀ rest', rest'.head? = rest.head? →
      again (us ++ rest') (.failed e rest' g)
  | .outOfCalls => True

/-- What is decided by the later tokens is decided by all of them, if reading goes on with the later
ones in the same way. -/
theorem Outcome.Decided.prepend {us ts : List Token}
    {again again' : List Token → Outcome Sized → Prop} {o : Outcome Sized} (h : o.Decided ts again)
    (hon : ∀ ts' o', ts'.head? = ts.head? → again ts' o' → again' (us ++ ts') o') :
    o.Decided (us ++ ts) again' := by
  cases o with
  | done v rest =>
    obtain ⟨vs, rfl, hagain⟩ := h
    refine ⟨us ++ vs, by simp, fun rest' hrest => ?_⟩
    rw [List.append_assoc]
    exact hon _ _ (head?_append_congr vs hrest) (hagain rest' hrest)
  | failed e rest g =>
    obtain ⟨vs, rfl, hagain⟩ := h
    refine ⟨us ++ vs, by simp, fun rest' hrest => ?_⟩
    rw [List.append_assoc]
    exact hon _ _ (head?_append_congr vs hrest) (hagain rest' hrest)
  | outOfCalls => trivial

def Decides (nested : Nested) : Prop :=
  ∀ g least ts, (nested g least ts).Decided ts fun ts' o => nested g least ts' = o

section

variable {nested : Nested} {finish : Span}

theorem errorAt_congr (expected : Expected) {rest rest' : List Token}
    (h : rest'.head? = rest.head?) :
    errorAt finish expected rest' = errorAt finish expected rest := by
  cases rest with
  | nil => rw [List.head?_eq_none_iff.mp h]
  | cons t rest =>
    obtain ⟨more, rfl⟩ := List.head?_eq_some_iff.mp h
    rfl

/-- A closed group is settled with its parenthesis, whatever comes next. -/
theorem closed_decided {g g' least : Nat} {a b : Span} {ts rest : List Token} {v : Sized}
    (h : (Outcome.done v (⟨.closeParen, b⟩ :: rest)).Decided ts fun ts' o =>
      nested g' least ts' = o) :
    (closing finish a g (.done v (⟨.closeParen, b⟩ :: rest))).Decided ts fun ts' o =>
      closing finish a g (nested g' least ts') = o := by
  obtain ⟨us, rfl, hagain⟩ := h
  obtain ⟨n, height⟩ := v
  have hclosed : ∀ rest',
      closing finish a g (nested g' least ((us ++ [⟨.closeParen, b⟩]) ++ rest')) =
        if maxHeight ≤ height then .failed (tooHigh ⟨.openParen, a⟩) rest' g
        else .done (.group n, height + 1) rest' := by
    intro rest'
    have hdone : nested g' least (us ++ ⟨.closeParen, b⟩ :: rest') =
        .done (n, height) (⟨.closeParen, b⟩ :: rest') := hagain _ rfl
    rw [← List.append_cons, hdone, closing_closed]
  have htokens : us ++ ⟨.closeParen, b⟩ :: rest = (us ++ [⟨.closeParen, b⟩]) ++ rest := by simp
  rw [closing_closed]
  by_cases hheight : maxHeight ≤ height
  · rw [if_pos hheight]
    exact ⟨_, htokens, fun rest' _ => (hclosed rest').trans (if_pos hheight)⟩
  · rw [if_neg hheight]
    exact ⟨_, htokens, fun rest' _ => (hclosed rest').trans (if_neg hheight)⟩

/-- A group that is not closed is refused at the next token, and at any other in its place that does
not close it. -/
theorem unclosed_decided {g g' least : Nat} {a : Span} {ts rest : List Token} {v : Sized}
    (h : (Outcome.done v rest).Decided ts fun ts' o => nested g' least ts' = o)
    (hclose : ∀ b more, rest ≠ ⟨.closeParen, b⟩ :: more) :
    (closing finish a g (.done v rest)).Decided ts fun ts' o =>
      closing finish a g (nested g' least ts') = o := by
  obtain ⟨us, rfl, hagain⟩ := h
  rw [closing_unclosed finish a g v hclose]
  refine ⟨us, rfl, fun rest' hrest => ?_⟩
  have hclose' := fun b => ne_cons_of_head? hrest (hclose b)
  have hdone : nested g' least (us ++ rest') = .done v rest' := hagain rest' hrest
  change closing finish a g (nested g' least (us ++ rest')) = _
  rw [hdone, closing_unclosed finish a g v hclose', errorAt_congr .closingParen hrest]

/-- What becomes of a group is decided if it is decided how its condition is read. -/
theorem closing_decided {g g' least : Nat} {a : Span} {ts : List Token} {o : Outcome Sized}
    (h : o.Decided ts fun ts' o => nested g' least ts' = o) :
    (closing finish a g o).Decided ts fun ts' o =>
      closing finish a g (nested g' least ts') = o := by
  cases o with
  | outOfCalls => trivial
  | failed e rest g'' =>
    obtain ⟨us, rfl, hagain⟩ := h
    exact ⟨us, rfl, fun rest' hrest => congrArg (closing finish a g) (hagain rest' hrest)⟩
  | done v rest =>
    by_cases hclose : ∃ b more, rest = ⟨.closeParen, b⟩ :: more
    · obtain ⟨b, more, rfl⟩ := hclose
      exact closed_decided h
    · exact unclosed_decided h fun b more heq => hclose ⟨b, more, heq⟩

theorem group_decided (hnested : Decides nested) (g : Nat) (a : Span) (ts : List Token) :
    (primary nested finish g (⟨.openParen, a⟩ :: ts)).Decided (⟨.openParen, a⟩ :: ts) fun ts' o =>
      primary nested finish g ts' = o := by
  rw [primary_openParen]
  by_cases hopen : maxHeight ≤ g
  · rw [if_pos hopen]
    exact ⟨[⟨.openParen, a⟩], rfl, fun rest' _ => if_pos hopen⟩
  · rw [if_neg hopen, ← List.singleton_append]
    refine (closing_decided (hnested (g + 1) 0 ts)).prepend fun ts' o _ hclosing => ?_
    rw [List.singleton_append, primary_openParen, if_neg hopen, hclosing]

/-- A primary is decided by its tokens and the next one, if a nested condition is. -/
theorem primary_decided (hnested : Decides nested) {g : Nat} {ts : List Token} {o : Outcome Sized}
    (h : primary nested finish g ts = o) :
    o.Decided ts fun ts' o => primary nested finish g ts' = o := by
  unfold primary at h
  split at h
  · next a ts =>
    rw [← h]
    exact group_decided hnested g a ts
  · next path a ts =>
    split at h
    · next c rest hc =>
      subst h
      obtain ⟨us, rfl, _, hagain⟩ := derives_of_comparison hc
      refine ⟨⟨.field path, a⟩ :: us, rfl, fun rest' _ => ?_⟩
      simp only [primary, List.cons_append, hagain rest']
    · next expected rest hc =>
      subst h
      obtain ⟨us, rfl, _, hagain⟩ := comparison_refused hc
      refine ⟨⟨.field path, a⟩ :: us, rfl, fun rest' hrest => ?_⟩
      simp only [primary, List.cons_append, hagain rest' hrest, errorAt_congr expected hrest]
  · next hopen hfield =>
    subst h
    refine ⟨[], rfl, fun rest' hrest => ?_⟩
    have hopen' := fun a => ne_cons_of_head? hrest (hopen a)
    have hfield' := fun path a => ne_cons_of_head? hrest (hfield path a)
    simp only [primary, List.nil_append, errorAt_congr .fieldOrGroup hrest]

def ClimbsTo (nested : Nested) (g least : Nat) (left : Sized) (ts : List Token)
    (o : Outcome Sized) : Prop :=
  ∀ more, ts.length ≤ more → climb nested g least more left ts = o

theorem climbsTo_stop {g least : Nat} {left : Sized} {ts : List Token} (h : ¬ GoesOn least ts) :
    ClimbsTo nested g least left ts (.done left ts) := fun _ _ => climb_stop h

section Link

variable {g least height : Nat} {left : Condition} {op : LogicalOp} {s : Span}
  {ts rest : List Token}

/-- Before a connective there is always one more link to climb. -/
theorem climbsTo_logical {o : Outcome Sized}
    (h : ∀ more, ts.length ≤ more →
      climb nested g least (more + 1) (left, height) (⟨.logical op, s⟩ :: ts) = o) :
    ClimbsTo nested g least (left, height) (⟨.logical op, s⟩ :: ts) o := by
  intro more hmore
  cases more with
  | zero => exact absurd hmore (Nat.not_succ_le_zero _)
  | succ more => exact h more (Nat.le_of_succ_le_succ hmore)

theorem climbsTo_failed {e : GrammarError} {g' : Nat} (hop : least ≤ op.strength)
    (h : nested g (op.strength + 1) ts = .failed e rest g') :
    ClimbsTo nested g least (left, height) (⟨.logical op, s⟩ :: ts) (.failed e rest g') :=
  climbsTo_logical fun _ _ => climb_failed hop h

theorem climbsTo_tooHigh {right : Condition} {height' : Nat} (hop : least ≤ op.strength)
    (h : nested g (op.strength + 1) ts = .done (right, height') rest)
    (hhigh : maxHeight < max height height' + 1) :
    ClimbsTo nested g least (left, height) (⟨.logical op, s⟩ :: ts)
      (.failed (tooHigh ⟨.logical op, s⟩) rest g) :=
  climbsTo_logical fun _ _ => by rw [climb_joined hop h, if_pos hhigh]

/-- A climb goes on from the joined condition to wherever the climb from there arrives. -/
theorem climbsTo_joined {right : Condition} {height' : Nat} {o : Outcome Sized}
    (hop : least ≤ op.strength) (h : nested g (op.strength + 1) ts = .done (right, height') rest)
    (hlow : ¬ maxHeight < max height height' + 1) (hrest : rest.length ≤ ts.length)
    (hclimb : ClimbsTo nested g least (.join op left right, max height height' + 1) rest o) :
    ClimbsTo nested g least (left, height) (⟨.logical op, s⟩ :: ts) o := by
  refine climbsTo_logical fun more hmore => ?_
  rw [climb_joined hop h, if_neg hlow]
  exact hclimb more (Nat.le_trans hrest hmore)

end Link

/-- One link of a climb is decided if its operand is and the climb after it is. -/
theorem link_decided (hnested : Decides nested) {g least more height : Nat} {left : Condition}
    {op : LogicalOp} {s : Span} {ts : List Token} (hop : least ≤ op.strength)
    (honward : ∀ joined rest, rest.length ≤ ts.length →
      (climb nested g least more joined rest).Decided rest (ClimbsTo nested g least joined)) :
    (climb nested g least (more + 1) (left, height) (⟨.logical op, s⟩ :: ts)).Decided
      (⟨.logical op, s⟩ :: ts) (ClimbsTo nested g least (left, height)) := by
  have hright := hnested g (op.strength + 1) ts
  cases hr : nested g (op.strength + 1) ts with
  | outOfCalls =>
    simp only [climb, hr, if_neg (Nat.not_lt.mpr hop)]
    trivial
  | failed e rest g' =>
    rw [hr] at hright
    obtain ⟨us, rfl, hagain⟩ := hright
    rw [climb_failed hop hr]
    exact ⟨⟨.logical op, s⟩ :: us, rfl, fun rest' hrest =>
      climbsTo_failed hop (hagain rest' hrest)⟩
  | done right rest =>
    rw [hr] at hright
    obtain ⟨us, rfl, hagain⟩ := hright
    rw [climb_joined hop hr]
    by_cases hhigh : maxHeight < max height right.2 + 1
    · rw [if_pos hhigh]
      exact ⟨⟨.logical op, s⟩ :: us, rfl, fun rest' hrest =>
        climbsTo_tooHigh hop (hagain rest' hrest) hhigh⟩
    · rw [if_neg hhigh, ← List.cons_append]
      exact (honward _ rest (by simp)).prepend fun rest' o hrest hclimb =>
        climbsTo_joined hop (hagain rest' hrest) hhigh (by simp) hclimb

/-- A climb is decided by its tokens and the next one, if each operand is. -/
theorem climb_decided (hnested : Decides nested) (g least : Nat) {more : Nat} {left : Sized}
    {ts : List Token} (hmore : ts.length ≤ more) :
    (climb nested g least more left ts).Decided ts (ClimbsTo nested g least left) := by
  induction more generalizing left ts with
  | zero =>
    obtain rfl : ts = [] := List.eq_nil_of_length_eq_zero (Nat.le_zero.mp hmore)
    refine ⟨[], rfl, fun rest' hrest => ?_⟩
    rw [List.head?_eq_none_iff.mp hrest]
    exact climbsTo_stop (goesOn_nil _)
  | succ more ih =>
    by_cases hgo : GoesOn least ts
    · obtain ⟨op, s, ts, rfl, hop⟩ := goesOn_cases least ts hgo
      exact link_decided hnested hop fun _ _ hlength =>
        ih (Nat.le_trans hlength (Nat.le_of_succ_le_succ hmore))
    · rw [climb_stop hgo]
      exact ⟨[], rfl, fun rest' hrest => climbsTo_stop (mt (goesOn_congr hrest).mp hgo)⟩

/-- By induction on the calls, a condition is decided by its tokens and the next one. -/
theorem condition_decided (finish : Span) (calls : Nat) : Decides (condition finish calls) := by
  induction calls with
  | zero => exact fun _ _ _ => trivial
  | succ calls ih =>
    intro g least ts
    cases hp : primary (condition finish calls) finish g ts with
    | done left rest =>
      have hprimary := primary_decided ih hp
      obtain ⟨us, rfl, hagain⟩ := hprimary
      rw [condition_primary_done hp]
      refine (climb_decided ih g least (Nat.le_refl _)).prepend fun rest' o hrest hclimb => ?_
      rw [condition_primary_done (hagain rest' hrest)]
      exact hclimb _ (Nat.le_refl _)
    | failed e rest g' =>
      have hprimary := primary_decided ih hp
      obtain ⟨us, rfl, hagain⟩ := hprimary
      rw [condition_primary_failed hp]
      exact ⟨us, rfl, fun rest' hrest => condition_primary_failed (hagain rest' hrest)⟩
    | outOfCalls =>
      simp only [condition, hp]
      trivial

end

/-! The tokens before a refused one begin a phrase of the layer that is read. -/

/-- Unless it is about the height, the error is about the first token that is left, and what has
been read before it begins a phrase of the layer. -/
def Prompt (finish : Span) (nested : Nested) : Prop :=
  ∀ (layer : Layer) (g : Nat) (ts rest : List Token) (e : GrammarError) (g' : Nat),
    nested g layer.least ts = .failed e rest g' → e.expected ≠ .nestingWithin maxHeight →
    e = errorAt finish e.expected rest ∧ ∃ us, ts = us ++ rest ∧ Viable layer us

section

variable {nested : Nested} {finish : Span} {g g' : Nat} {ts rest : List Token} {e : GrammarError}

theorem errorAt_expected (finish : Span) (expected : Expected) (ts : List Token) :
    (errorAt finish expected ts).expected = expected := by
  cases ts <;> rfl

/-- A primary is refused at a token before which it could have gone on. -/
theorem refused_by_primary (hsound : Sound nested) (hnested : Prompt finish nested)
    (h : primary nested finish g ts = .failed e rest g')
    (he : e.expected ≠ .nestingWithin maxHeight) :
    e = errorAt finish e.expected rest ∧ ∃ us, ts = us ++ rest ∧ Viable .primary us := by
  unfold primary at h
  split at h
  · next a ts =>
    simp only at h
    split at h
    · cases h
      exact absurd rfl he
    split at h
    · split at h
      · cases h
        exact absurd rfl he
      · cases h
    · next v rest' _ hinner =>
      cases h
      obtain ⟨us, rfl, hus, _⟩ := hsound .expression _ _ _ v.1 v.2 hinner
      exact ⟨by rw [errorAt_expected], ⟨.openParen, a⟩ :: us, rfl, hus.viable.openParen a⟩
    · obtain ⟨herror, us, rfl, hus⟩ := hnested .expression _ _ _ _ _ h he
      exact ⟨herror, ⟨.openParen, a⟩ :: us, rfl, hus.openParen a⟩
  · next path a ts =>
    split at h
    · cases h
    · next expected rest hc =>
      cases h
      obtain ⟨us, rfl, hus, _⟩ := comparison_refused hc
      exact ⟨by rw [errorAt_expected], ⟨.field path, a⟩ :: us, rfl, hus⟩
  · cases h
    exact ⟨by rw [errorAt_expected], [], rfl, .nil _⟩

theorem refused_by_climb (hsound : Sound nested) (hnested : Prompt finish nested) {layer : Layer}
    {more : Nat} {us : List Token} {left : Condition} {height : Nat}
    (hleft : Derives (.whole layer) us left)
    (hnext : ∀ op s ts', ts = ⟨.logical op, s⟩ :: ts' → layer.least ≤ op.strength →
      Derives (.whole op.layer) us left)
    (h : climb nested g layer.least more (left, height) ts = .failed e rest g')
    (he : e.expected ≠ .nestingWithin maxHeight) :
    e = errorAt finish e.expected rest ∧ ∃ vs, ts = vs ++ rest ∧ Viable layer (us ++ vs) := by
  induction more generalizing us ts left height with
  | zero => cases h
  | succ more ih =>
    by_cases hgo : GoesOn layer.least ts
    · obtain ⟨op, s, ts, rfl, hop⟩ := goesOn_cases _ _ hgo
      cases hr : nested g (op.strength + 1) ts with
      | outOfCalls => simp [climb, hr, Nat.not_lt.mpr hop] at h
      | failed e' rest' g'' =>
        rw [climb_failed hop hr] at h
        cases h
        rw [← op.least_operandLayer] at hr
        obtain ⟨herror, vs, rfl, hvs⟩ := hnested op.operandLayer _ _ _ _ _ hr he
        exact ⟨herror, ⟨.logical op, s⟩ :: vs, rfl,
          (hvs.logical s (hnext op s _ rfl hop)).loosen (LogicalOp.least_le_layer hop)⟩
      | done right rest' =>
        obtain ⟨right, height'⟩ := right
        rw [climb_joined hop hr] at h
        split at h
        · cases h
          exact absurd rfl he
        · rw [← op.least_operandLayer] at hr
          obtain ⟨vs, rfl, hvs, _, _, hstop⟩ := hsound op.operandLayer _ _ _ _ _ hr
          rw [op.least_operandLayer] at hstop
          obtain ⟨hjoin, hnext'⟩ := derives_joined s hop (hnext op s _ rfl hop) hvs hstop
          obtain ⟨herror, ws, rfl, hws⟩ := ih hjoin hnext' h
          exact ⟨herror, ⟨.logical op, s⟩ :: (vs ++ ws), by simp, by simpa using hws⟩
    · rw [climb_stop hgo] at h
      cases h

/-- By induction on the calls, a condition is refused at the first token that cannot stand there. -/
theorem prompt_condition (finish : Span) (calls : Nat) :
    Prompt finish (condition finish calls) := by
  induction calls with
  | zero =>
    intro layer g ts rest e g' h
    cases h
  | succ calls ih =>
    intro layer g ts rest e g' h he
    have hsound := sound_condition finish calls
    cases hp : primary (condition finish calls) finish g ts with
    | outOfCalls => simp [condition, hp] at h
    | failed e' rest' g'' =>
      rw [condition_primary_failed hp] at h
      cases h
      obtain ⟨herror, us, rfl, hus⟩ := refused_by_primary hsound ih hp he
      exact ⟨herror, us, rfl, hus.loosen layer.least_le_primary⟩
    | done left rest' =>
      rw [condition_primary_done hp] at h
      obtain ⟨left, height⟩ := left
      obtain ⟨us, rfl, hus, _⟩ := derives_of_primary hsound hp
      obtain ⟨herror, vs, rfl, hvs⟩ := refused_by_climb hsound ih
        (hus.loosen layer.least_le_primary) (fun op _ _ _ _ => hus.loosen op.layer.least_le_primary)
        h he
      exact ⟨herror, us ++ vs, by simp, hvs⟩

end
/-! No condition begins with the tokens before a refused one and that one. -/

section

variable {finish : Span} {us rest : List Token}

theorem refuses_of_errorAt {e : GrammarError} (he : e = errorAt finish e.expected rest)
    (hnext : ∀ t more, rest = t :: more →
      ∀ after n, ¬ Derives (.whole .expression) (us ++ t :: after) n)
    (hend : atEnd rest = true → ∀ n, ¬ Derives (.whole .expression) us n) :
    e.Refuses us finish rest := by
  rw [he]
  cases rest with
  | nil => exact ⟨rfl, rfl, hend rfl⟩
  | cons t more =>
    exact ⟨rfl, rfl, hnext t more rfl, fun ht => hend (by simp [atEnd, ht])⟩

/-- An outcome that a condition does not have shows that there is none. -/
theorem not_derives_of_condition {o : Outcome Sized}
    (h : condition finish callLimit 0 0 (us ++ rest) = o)
    (hrest : ¬ GoesOn Layer.expression.least rest)
    (hdone : ∀ v, o ≠ .done v rest) (hfailed : ∀ token left g, o ≠ .failed (tooHigh token) left g)
    (n : Condition) : ¬ Derives (.whole .expression) us n := by
  intro hn
  obtain ⟨_, hread⟩ | ⟨_, token, _, left, g, hread⟩ := condition_of_derives finish hn hrest
  · exact hdone _ (h.symm.trans hread)
  · exact hfailed _ _ _ (h.symm.trans hread)

/-- If the reader stops in front of a token, no condition has that token there. -/
theorem not_derives_past {t : Token} {v : Sized}
    (h : condition finish callLimit 0 0 (us ++ t :: rest) = .done v (t :: rest))
    (after : List Token) (n : Condition) :
    ¬ Derives (.whole .expression) (us ++ t :: after) n := by
  have hdecided := condition_decided finish callLimit 0 0 (us ++ t :: rest)
  rw [h] at hdecided
  obtain ⟨us', heq, hagain⟩ := hdecided
  obtain rfl := List.append_cancel_right heq
  have hread := hagain (t :: after) rfl
  rw [← List.append_nil (us ++ t :: after)] at hread
  exact not_derives_of_condition hread (goesOn_nil _) nofun nofun n

/-- If the reader fails at a token, no condition has that token there. -/
theorem not_derives_refused {t : Token} {e : GrammarError} {g : Nat}
    (h : condition finish callLimit 0 0 (us ++ t :: rest) = .failed e (t :: rest) g)
    (he : e.expected ≠ .nestingWithin maxHeight) (after : List Token) (n : Condition) :
    ¬ Derives (.whole .expression) (us ++ t :: after) n := by
  have hdecided := condition_decided finish callLimit 0 0 (us ++ t :: rest)
  rw [h] at hdecided
  obtain ⟨us', heq, hagain⟩ := hdecided
  obtain rfl := List.append_cancel_right heq
  have hread := hagain (t :: after) rfl
  rw [← List.append_nil (us ++ t :: after)] at hread
  refine not_derives_of_condition hread (goesOn_nil _) nofun ?_ n
  rintro token left g' heq
  cases heq
  exact he rfl

theorem not_derives_unfinished {e : GrammarError} {g : Nat}
    (h : condition finish callLimit 0 0 (us ++ rest) = .failed e rest g)
    (he : e.expected ≠ .nestingWithin maxHeight) (hrest : atEnd rest = true) (n : Condition) :
    ¬ Derives (.whole .expression) us n := by
  refine not_derives_of_condition h (not_goesOn_of_atEnd hrest _) nofun ?_ n
  rintro token left g' heq
  cases heq
  exact he rfl

/-- A reader without open groups refuses the first token with which no condition goes on. -/
theorem refuses_of_read {r r' : Reader} (hopen : r.openGroups = 0) {e : GrammarError}
    (h : r.read = (.error e, r')) (he : e.expected ≠ .nestingWithin maxHeight) :
    ∃ before, r.pending = before ++ r'.pending ∧ Viable .expression before ∧
      e.Refuses before r.finish r'.pending := by
  by_cases hstart : atEnd r.pending = true
  · rw [read_atEnd hstart] at h
    cases h
    refine ⟨[], rfl, Viable.nil .expression, refuses_of_errorAt (by rw [errorAt_expected]) ?_ ?_⟩
    · intro t more hts after n hn
      have hstart' := not_atEnd_of_derives hn []
      rw [hts] at hstart
      exact Bool.false_ne_true (hstart'.symm.trans hstart)
    · exact fun _ n hn => n.kinds_ne_nil hn.kinds_eq.symm
  cases hc : condition r.finish callLimit r.openGroups 0 r.pending with
  | outOfCalls => exact absurd hc (callLimit_suffices r.finish r.openGroups r.pending)
  | failed e' rest g =>
    rw [read_failed hstart hc] at h
    cases h
    rw [hopen] at hc
    obtain ⟨herror, us, hts, hus⟩ := prompt_condition _ _ .expression _ _ _ _ _ hc he
    rw [hts] at hc
    refine ⟨us, hts, hus, refuses_of_errorAt herror ?_ (not_derives_unfinished hc he)⟩
    rintro t more rfl
    exact not_derives_refused hc he
  | done v rest =>
    rw [read_done hstart hc] at h
    by_cases hrest : atEnd rest = true
    · rw [if_pos hrest] at h
      cases h
    rw [if_neg hrest] at h
    cases h
    rw [hopen] at hc
    obtain ⟨us, hts, hus, _⟩ := sound_condition _ _ .expression _ _ _ v.1 v.2 hc
    rw [hts] at hc
    refine ⟨us, hts, hus.viable, refuses_of_errorAt (by rw [errorAt_expected]) ?_ ?_⟩
    · rintro t more rfl
      exact not_derives_past hc
    · exact fun hend => absurd hend hrest

end

/-- The reader refuses the first token that cannot stand where it stands. Its error is about the
first of the tokens that it leaves, or about the end of the last token if it leaves none. The tokens
before begin some condition, and no condition begins with them and the refused one; where the input
ends, they are no condition by themselves. Conditions of any height count, and errors about the
height are not spoken of. -/
theorem read_refuses_first (ts : List Token) {e : GrammarError} {r : Reader}
    (h : (ofTokens ts).read = (.error e, r)) (he : e.expected ≠ .nestingWithin maxHeight) :
    ∃ before, ts = before ++ r.pending ∧
      (∃ after n, Derives (.whole .expression) (before ++ after) n) ∧
      e.Refuses before ((ts.getLast?.map fun t => t.span.after).getD {}) r.pending :=
  refuses_of_read rfl h he

/-- A closing parenthesis where the operand of a comparison should stand. -/
theorem read_refuses_closing_paren :
    let opened : List Token :=
      [⟨.openParen, ⟨0, 1⟩⟩, ⟨.field "A", ⟨1, 2⟩⟩, ⟨.comparison .equals false, ⟨2, 4⟩⟩]
    let close : List Token := [⟨.closeParen, ⟨4, 5⟩⟩, ⟨.endOfInput, ⟨5, 5⟩⟩]
    ∃ e r, (ofTokens (opened ++ close)).read = (.error e, r) ∧
      e.expected ≠ .nestingWithin maxHeight ∧ r.pending = close ∧
      Viable .expression opened ∧ e.Refuses opened ⟨5, 5⟩ close := by
  intro opened close
  have h : (ofTokens (opened ++ close)).read = (.error ⟨.literal, .token .closeParen, ⟨4, 5⟩⟩,
      ⟨close, 1, ⟨5, 5⟩⟩) := rfl
  refine ⟨_, _, h, nofun, rfl, ?_⟩
  obtain ⟨before, hbefore, hviable, hrefuses⟩ := read_refuses_first _ h nofun
  obtain rfl := List.append_cancel_right hbefore
  exact ⟨hviable, hrefuses⟩

end Reader
end RecordFilter
