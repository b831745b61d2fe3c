import Scriptlet.Proofs.Parsing.Link
import Scriptlet.Proofs.Sequencing

namespace Scriptlet

variable {α : Type} {d : Nat} {start start' reached c next : Cursor}

/-- Nothing is left that was not there before. -/
theorem Cursor.Reaches.length_le (h : c.Reaches next) : next.rest.length ≤ c.rest.length := by
  obtain ⟨n, _, rfl⟩ := h
  rw [rest_skip, List.length_drop]
  omega

/-- Induction on how many characters are left. -/
theorem Cursor.shorter_induction {P : Cursor → Prop}
    (h : ∀ c, (∀ next : Cursor, next.rest.length < c.rest.length → P next) → P c) (c : Cursor) :
    P c := by
  induction hLength : c.rest.length using Nat.strongRecOn generalizing c with
  | _ n ih => exact h c fun next hShorter => ih _ (hLength ▸ hShorter) next rfl

/-- A sequence that has moved is committed, however it fails then. -/
theorem Failure.later_of_lt (h : start.offset < reached.offset) (reason : Failure) :
    reason.later start reached = { reason with consumed := true } := by
  simp [later, h]

namespace Outcome

/-- The same outcome with a failure, if it is one, committed. -/
def committed : Outcome α → Outcome α
  | success value next => success value next
  | failure reason => failure { reason with consumed := true }
  | halted cause => halted cause

/-- A failure, if it is one, that no alternative is tried after. -/
def Decisive (outcome : Outcome α) : Prop :=
  ∀ reason, outcome = .failure reason → reason.consumed = true

variable {outcome : Outcome α}

theorem map_map {β γ : Type} (f : α → β) (g : β → γ) (outcome : Outcome α) :
    (outcome.map f).map g = outcome.map (g ∘ f) := by
  cases outcome <;> rfl

theorem later_of_lt (h : start.offset < reached.offset) (outcome : Outcome α) :
    outcome.later start reached = outcome.committed := by
  cases outcome with
  | success | halted => rfl
  | failure reason => simp only [later, committed, Failure.later_of_lt h]

theorem committed_later (outcome : Outcome α) :
    (outcome.later start reached).committed = outcome.committed := by
  cases outcome <;> rfl

theorem decisive_halted (cause : Halt) : (halted cause : Outcome α).Decisive := by
  intro reason h
  cases h

/-- Only a committed failure is passed on. -/
theorem decisive_passedOn (reason : Failure) (value : α) (next : Cursor) :
    (if reason.consumed then failure reason else success value next).Decisive := by
  intro other h
  cases hCommitted : reason.consumed with
  | true =>
      rw [if_pos hCommitted] at h
      cases h
      exact hCommitted
  | false =>
      rw [if_neg (by simp [hCommitted])] at h
      cases h

theorem Decisive.committed_eq (h : outcome.Decisive) : outcome.committed = outcome := by
  cases outcome with
  | success | halted => rfl
  | failure reason => simp only [committed, ← h reason rfl]

theorem Decisive.later_eq (h : outcome.Decisive) (start reached : Cursor) :
    outcome.later start reached = outcome := by
  cases outcome with
  | success | halted => rfl
  | failure reason =>
      have hCommitted := h reason rfl
      simp only [later, Failure.later, hCommitted, Bool.true_or]
      rw [← hCommitted]

theorem Decisive.map {β : Type} (h : outcome.Decisive) (f : α → β) : (outcome.map f).Decisive := by
  intro reason hReason
  exact h reason (failure_of_map hReason)

end Outcome

namespace Parser

/-- A match takes at least one character: it ends further on, with fewer of them left. -/
def Consumes (p : Parser α) : Prop :=
  ∀ d c value next, p.step d c = .success value next →
    c.offset < next.offset ∧ next.rest.length < c.rest.length

/-- No match goes back: it never ends before the place where it began, nor with more
characters left than there. -/
def NeverBack (p : Parser α) : Prop :=
  ∀ d c value next, p.step d c = .success value next →
    c.offset ≤ next.offset ∧ next.rest.length ≤ c.rest.length

theorem Consumes.neverBack {p : Parser α} (hp : Consumes p) : NeverBack p := by
  intro d c value next h
  obtain ⟨hFurther, hShorter⟩ := hp d c value next h
  exact ⟨Nat.le_of_lt hFurther, Nat.le_of_lt hShorter⟩

theorem Reads.neverBack {p : Parser α} (hp : Reads p) : NeverBack p := by
  intro d c value next h
  have hReaches := hp d c value next h
  exact ⟨hReaches.spans.1, hReaches.length_le⟩

theorem Consumes.map {β : Type} {p : Parser α} (hp : Consumes p) (f : α → β) :
    Consumes (f <$> p) := by
  intro d c value next h
  obtain ⟨inner, hInner⟩ := Outcome.success_of_map h
  exact hp d c inner next hInner

theorem consumes_satisfy (accepts : Char → Bool) (label : String) :
    Consumes (satisfy accepts label) := by
  intro d c value next h
  cases hRest : c.rest with
  | nil =>
      simp [satisfy, Cursor.next?_of_nil hRest] at h
  | cons x text =>
      simp only [satisfy, Cursor.next?_of_cons hRest] at h
      split at h
      · cases h
        simp [hRest]
      · cases h

/-- An alternative that takes nothing comes into play when the one before it fails
without being committed. -/
theorem orElse_pure_step (p : Parser α) (value : α) (d : Nat) (c : Cursor) :
    (p <|> Parser.pure value).step d c =
      match p.step d c with
      | .success found next => .success found next
      | .failure reason => if reason.consumed then .failure reason else .success value c
      | .halted cause => .halted cause := by
  simp only [orElse_step, choice, tryEach, Parser.pure]
  cases p.step d c <;> rfl

/-! Repetition. -/

/-- The recursive definition of a repetition: an item and the repetition once more, or
nothing. -/
def repetition (p : Parser α) (again : Parser (List α)) : Parser (List α) :=
  (Parser.bind p fun first => (first :: ·) <$> again) <|> Parser.pure []

section Repetition

variable {p : Parser α} (hp : Consumes p)

include hp

theorem repetition_step (again : Parser (List α)) (d : Nat) (c : Cursor) :
    (repetition p again).step d c =
      match p.step d c with
      | .success value next => ((again.step d next).map (value :: ·)).committed
      | .failure reason => if reason.consumed then .failure reason else .success [] c
      | .halted cause => .halted cause := by
  rw [repetition, orElse_pure_step]
  cases hFirst : p.step d c with
  | failure reason => rw [bind_of_failure hFirst]
  | halted cause => rw [bind_of_halted hFirst]
  | success value next =>
      have hMoved := (hp d c value next hFirst).1
      rw [bind_of_success hFirst, Outcome.later_of_lt hMoved, map_step]
      simp only
      cases again.step d next <;> rfl

/-- What was found before does not matter to a repetition, nor does the number of
rounds, as long as there are rounds for all the characters that are left. -/
theorem manyRounds_eq (rounds : List Char) (c : Cursor) (found : List α)
    (hRounds : c.rest.length ≤ rounds.length) :
    manyRounds p d rounds c found = ((many p).step d c).map (found.reverse ++ ·) := by
  induction c using Cursor.shorter_induction generalizing rounds found with
  | h c ih =>
      rw [show (many p).step d c = manyRounds p d c.rest c [] from rfl]
      unfold manyRounds
      cases hFirst : p.step d c with
      | failure reason =>
          simp only
          split
          · rfl
          · simp [Outcome.map]
      | halted cause => rfl
      | success value next =>
          obtain ⟨hFurther, hShorter⟩ := hp d c value next hFirst
          have hMoved : ¬ next.offset = c.offset := Nat.ne_of_gt hFurther
          obtain ⟨round, rounds, rfl⟩ := List.exists_cons_of_length_pos (l := rounds) (by omega)
          obtain ⟨x, text, hText⟩ := List.exists_cons_of_length_pos (l := c.rest) (by omega)
          rw [hText] at hShorter hRounds
          simp only [List.length_cons] at hShorter hRounds
          have hLater := ih next (by rw [hText]; simpa using hShorter)
          simp only [if_neg hMoved, hText]
          rw [hLater rounds (value :: found) (by omega), hLater text [value] (by omega),
            Outcome.map_map]
          congr 1
          funext values
          simp

/-- The first round of a repetition, and the repetition from there on. -/
theorem many_step (d : Nat) (c : Cursor) :
    (many p).step d c =
      match p.step d c with
      | .success value next => ((many p).step d next).map (value :: ·)
      | .failure reason => if reason.consumed then .failure reason else .success [] c
      | .halted cause => .halted cause := by
  rw [show (many p).step d c = manyRounds p d c.rest c [] from rfl]
  unfold manyRounds
  cases hFirst : p.step d c with
  | failure | halted => rfl
  | success value next =>
      obtain ⟨hFurther, hShorter⟩ := hp d c value next hFirst
      have hMoved : ¬ next.offset = c.offset := Nat.ne_of_gt hFurther
      obtain ⟨x, text, hText⟩ := List.exists_cons_of_length_pos (l := c.rest) (by omega)
      rw [hText, List.length_cons] at hShorter
      simp only [if_neg hMoved, hText]
      rw [manyRounds_eq hp text next [value] (by omega)]
      rfl

/-- A repetition fails only where an item of it is committed. -/
theorem many_decisive (d : Nat) (c : Cursor) : ((many p).step d c).Decisive := by
  induction c using Cursor.shorter_induction with
  | h c ih =>
      rw [many_step hp]
      cases hFirst : p.step d c with
      | halted cause => exact Outcome.decisive_halted cause
      | failure reason => exact Outcome.decisive_passedOn reason [] c
      | success value next =>
          have hShorter := (hp d c value next hFirst).2
          exact (ih next hShorter).map _

/-- A repetition does what its recursive definition says. -/
theorem many_eq_repetition : (many p).step = (repetition p (many p)).step := by
  funext d c
  rw [many_step hp, repetition_step hp]
  cases p.step d c with
  | failure | halted => rfl
  | success value next => exact ((many_decisive hp d next).map _).committed_eq.symm

/-- Nothing else does what the recursive definition says. -/
theorem repetition_unique {again again' : Parser (List α)}
    (h : again.step = (repetition p again).step) (h' : again'.step = (repetition p again').step) :
    again.step = again'.step := by
  funext d c
  induction c using Cursor.shorter_induction with
  | h c ih =>
      rw [h, h', repetition_step hp, repetition_step hp]
      cases hFirst : p.step d c with
      | failure | halted => rfl
      | success value next =>
          have hShorter := (hp d c value next hFirst).2
          simp only [ih next hShorter]

end Repetition

/-! Chains. -/

/-- The recursive definition of what follows an operand of a chain, whose value so far
is `left`: an operator, an operand and what follows that one, or nothing. -/
def chainTail (operand : Parser α) (operator : Parser (α → α → α)) (tail : α → Parser α)
    (left : α) : Parser α :=
  (Parser.bind operator fun combine =>
    Parser.bind operand fun right => tail (combine left right)) <|> Parser.pure left

/-- The rounds of a chain as a parser of their own. -/
def chainFrom (operand : Parser α) (operator : Parser (α → α → α)) (left : α) : Parser α where
  name := "chainl1"
  form := .composed
  step d c := chainRounds operand operator d c c.rest c left

/-- Operators and operands in turn, as they are matched from one place to another. -/
inductive Alternates (operand : Parser α) (operator : Parser (α → α → α)) (d : Nat) :
    Cursor → List ((α → α → α) × α) → Cursor → Prop where
  | stop (c : Cursor) : Alternates operand operator d c [] c
  | round {c reached next last : Cursor} {combine : α → α → α} {right : α}
      {rounds : List ((α → α → α) × α)} (hOperator : operator.step d c = .success combine reached)
      (hOperand : operand.step d reached = .success right next)
      (later : Alternates operand operator d next rounds last) :
      Alternates operand operator d c ((combine, right) :: rounds) last

/-- The value of a chain: its operators are applied strictly from the left. -/
def combineAll (first : α) (rounds : List ((α → α → α) × α)) : α :=
  rounds.foldl (fun left (combine, right) => combine left right) first

section Chain

variable {operand : Parser α} {operator : Parser (α → α → α)} (hOperand : NeverBack operand)
  (hOperator : Consumes operator)

include hOperand hOperator

/-- Where a chain began does not matter to its rounds, since an operator has moved the
chain anyway. Nor does the number of rounds, if there are enough of them. -/
theorem chainRounds_congr (rounds rounds' : List Char) (c : Cursor) (left : α)
    (hStart : start.offset ≤ c.offset) (hStart' : start'.offset ≤ c.offset)
    (hRounds : c.rest.length ≤ rounds.length) (hRounds' : c.rest.length ≤ rounds'.length) :
    chainRounds operand operator d start rounds c left =
      chainRounds operand operator d start' rounds' c left := by
  induction c using Cursor.shorter_induction generalizing rounds rounds' left with
  | h c ih =>
      rw [chainRounds_eq, chainRounds_eq operand operator d start']
      cases hFirst : operator.step d c with
      | failure | halted => rfl
      | success combine reached =>
          obtain ⟨hMoved, hShorter⟩ := hOperator d c combine reached hFirst
          obtain ⟨round, rounds, rfl⟩ := List.exists_cons_of_length_pos (l := rounds) (by omega)
          obtain ⟨round', rounds', rfl⟩ := List.exists_cons_of_length_pos (l := rounds') (by omega)
          simp only [List.length_cons] at hRounds hRounds'
          simp only
          cases hSecond : operand.step d reached with
          | halted cause => rfl
          | failure reason =>
              have hBehind : start.offset < reached.offset := by omega
              have hBehind' : start'.offset < reached.offset := by omega
              simp only [Failure.later_of_lt hBehind, Failure.later_of_lt hBehind']
          | success right next =>
              obtain ⟨hFurther, hLeft⟩ := hOperand d reached right next hSecond
              exact ih next (by omega) rounds rounds' _ (by omega) (by omega) (by omega) (by omega)

/-- One round of a chain and the rounds from there on. -/
theorem chainFrom_step (left : α) (d : Nat) (c : Cursor) :
    (chainFrom operand operator left).step d c =
      match operator.step d c with
      | .success combine reached =>
        match operand.step d reached with
        | .success right next => (chainFrom operand operator (combine left right)).step d next
        | .failure reason => .failure { reason with consumed := true }
        | .halted cause => .halted cause
      | .failure reason => if reason.consumed then .failure reason else .success left c
      | .halted cause => .halted cause := by
  simp only [chainFrom]
  rw [chainRounds_eq]
  cases hFirst : operator.step d c with
  | failure | halted => rfl
  | success combine reached =>
      obtain ⟨hMoved, hShorter⟩ := hOperator d c combine reached hFirst
      obtain ⟨x, text, hText⟩ := List.exists_cons_of_length_pos (l := c.rest) (by omega)
      rw [hText, List.length_cons] at hShorter
      simp only [hText]
      cases hSecond : operand.step d reached with
      | halted cause => rfl
      | failure reason => simp only [Failure.later_of_lt hMoved]
      | success right next =>
          obtain ⟨hFurther, hLeft⟩ := hOperand d reached right next hSecond
          exact chainRounds_congr hOperand hOperator _ _ _ _ (by omega) (Nat.le_refl _) (by omega)
            (Nat.le_refl _)

/-- A chain fails only where an operator is committed or stands without an operand. -/
theorem chainFrom_decisive (left : α) (d : Nat) (c : Cursor) :
    ((chainFrom operand operator left).step d c).Decisive := by
  induction c using Cursor.shorter_induction generalizing left with
  | h c ih =>
      rw [chainFrom_step hOperand hOperator]
      cases hFirst : operator.step d c with
      | halted cause => exact Outcome.decisive_halted cause
      | failure reason => exact Outcome.decisive_passedOn reason left c
      | success combine reached =>
          have hShorter := (hOperator d c combine reached hFirst).2
          simp only
          cases hSecond : operand.step d reached with
          | halted cause => exact Outcome.decisive_halted cause
          | failure reason =>
              intro other h
              cases h
              rfl
          | success right next =>
              have hLeft := (hOperand d reached right next hSecond).2
              exact ih next (by omega) _

omit hOperand in
theorem chainTail_step (tail : α → Parser α) (left : α) (d : Nat) (c : Cursor) :
    (chainTail operand operator tail left).step d c =
      match operator.step d c with
      | .success combine reached =>
        match operand.step d reached with
        | .success right next => ((tail (combine left right)).step d next).committed
        | .failure reason => .failure { reason with consumed := true }
        | .halted cause => .halted cause
      | .failure reason => if reason.consumed then .failure reason else .success left c
      | .halted cause => .halted cause := by
  rw [chainTail, orElse_pure_step]
  cases hFirst : operator.step d c with
  | failure reason => rw [bind_of_failure hFirst]
  | halted cause => rw [bind_of_halted hFirst]
  | success combine reached =>
      have hMoved := (hOperator d c combine reached hFirst).1
      rw [bind_of_success hFirst, Outcome.later_of_lt hMoved]
      simp only
      cases hSecond : operand.step d reached with
      | failure reason =>
          rw [bind_of_failure hSecond]
          rfl
      | halted cause =>
          rw [bind_of_halted hSecond]
          rfl
      | success right next =>
          rw [bind_of_success hSecond, Outcome.committed_later]
          simp only
          cases (tail (combine left right)).step d next <;> rfl

/-- The rounds of a chain do what their recursive definition says. -/
theorem chainFrom_eq_chainTail (left : α) :
    (chainFrom operand operator left).step =
      (chainTail operand operator (chainFrom operand operator) left).step := by
  funext d c
  rw [chainFrom_step hOperand hOperator, chainTail_step hOperator]
  cases operator.step d c with
  | failure | halted => rfl
  | success combine reached =>
      simp only
      cases operand.step d reached with
      | failure | halted => rfl
      | success right next =>
          exact (chainFrom_decisive hOperand hOperator _ d next).committed_eq.symm

/-- Nothing else does what the recursive definition says. -/
theorem chainTail_unique {tail tail' : α → Parser α}
    (h : ∀ left, (tail left).step = (chainTail operand operator tail left).step)
    (h' : ∀ left, (tail' left).step = (chainTail operand operator tail' left).step) (left : α) :
    (tail left).step = (tail' left).step := by
  funext d c
  induction c using Cursor.shorter_induction generalizing left with
  | h c ih =>
      rw [h, h', chainTail_step hOperator, chainTail_step hOperator]
      cases hFirst : operator.step d c with
      | failure | halted => rfl
      | success combine reached =>
          have hShorter := (hOperator d c combine reached hFirst).2
          simp only
          cases hSecond : operand.step d reached with
          | failure | halted => rfl
          | success right next =>
              have hLeft := (hOperand d reached right next hSecond).2
              simp only [ih next (by omega) (combine left right)]

/-- A chain is an operand and what follows it. -/
theorem chainLeft_eq_bind :
    (chainLeft operand operator).step =
      (Parser.bind operand (chainFrom operand operator)).step := by
  funext d start
  simp only [chainLeft]
  cases hFirst : operand.step d start with
  | failure reason => rw [bind_of_failure hFirst]
  | halted cause => rw [bind_of_halted hFirst]
  | success value next =>
      have hFurther := (hOperand d start value next hFirst).1
      have hDecisive := chainFrom_decisive hOperand hOperator value d next
      rw [bind_of_success hFirst, hDecisive.later_eq]
      exact chainRounds_congr hOperand hOperator _ _ _ _ hFurther (Nat.le_refl _) (Nat.le_refl _)
        (Nat.le_refl _)

/-- The rounds of a chain that match are followed by a place where no operator stands,
and their value is that of all operators applied from the left. -/
theorem chainFrom_success_iff (left value : α) (d : Nat) (c last : Cursor) :
    (chainFrom operand operator left).step d c = .success value last ↔
      ∃ rounds, Alternates operand operator d c rounds last ∧ Misses operator d last ∧
        value = combineAll left rounds := by
  constructor
  · intro h
    induction c using Cursor.shorter_induction generalizing left with
    | h c ih =>
        rw [chainFrom_step hOperand hOperator] at h
        cases hFirst : operator.step d c with
        | halted cause =>
            rw [hFirst] at h
            cases h
        | failure reason =>
            simp only [hFirst] at h
            split at h
            · cases h
            · rename_i hFree
              cases h
              exact ⟨[], .stop _, ⟨reason, hFirst, by simpa using hFree⟩, rfl⟩
        | success combine reached =>
            have hShorter := (hOperator d c combine reached hFirst).2
            simp only [hFirst] at h
            cases hSecond : operand.step d reached with
            | halted | failure =>
                rw [hSecond] at h
                cases h
            | success right next =>
                have hLeft := (hOperand d reached right next hSecond).2
                simp only [hSecond] at h
                obtain ⟨rounds, hRounds, hMiss, hValue⟩ := ih next (by omega) _ h
                exact ⟨(combine, right) :: rounds, .round hFirst hSecond hRounds, hMiss, hValue⟩
  · rintro ⟨rounds, hRounds, ⟨reason, hMiss, hFree⟩, rfl⟩
    induction hRounds generalizing left with
    | stop c => simp [chainFrom_step hOperand hOperator, hMiss, hFree, combineAll]
    | round hFirst hSecond _ ih =>
        rw [chainFrom_step hOperand hOperator]
        simp only [hFirst, hSecond]
        exact ih _ hMiss

/-- An operator without an operand makes the whole chain fail, committed. -/
theorem chainFrom_dangling {rounds : List ((α → α → α) × α)} {c mid reached : Cursor}
    {combine : α → α → α} {reason : Failure} (hRounds : Alternates operand operator d c rounds mid)
    (hFirst : operator.step d mid = .success combine reached)
    (hSecond : operand.step d reached = .failure reason) (left : α) :
    (chainFrom operand operator left).step d c = .failure { reason with consumed := true } := by
  induction hRounds generalizing left with
  | stop c =>
      rw [chainFrom_step hOperand hOperator]
      simp only [hFirst, hSecond]
  | round hOther hRight _ ih =>
      rw [chainFrom_step hOperand hOperator]
      simp only [hOther, hRight]
      exact ih hFirst _

/-- A chain that begins with an operand does what its rounds do. -/
theorem chainLeft_of_operand {first : α} (h : operand.step d c = .success first next) :
    (chainLeft operand operator).step d c = (chainFrom operand operator first).step d next := by
  rw [chainLeft_eq_bind hOperand hOperator, bind_of_success h,
    (chainFrom_decisive hOperand hOperator first d next).later_eq]

theorem chainLeft_success_iff {value : α} {last : Cursor} :
    (chainLeft operand operator).step d c = .success value last ↔
      ∃ first next rounds, operand.step d c = .success first next ∧
        Alternates operand operator d next rounds last ∧ Misses operator d last ∧
        value = combineAll first rounds := by
  constructor
  · intro h
    cases hFirst : operand.step d c with
    | failure | halted =>
        simp only [chainLeft, hFirst] at h
        cases h
    | success first next =>
        rw [chainLeft_of_operand hOperand hOperator hFirst,
          chainFrom_success_iff hOperand hOperator] at h
        obtain ⟨rounds, hRounds⟩ := h
        exact ⟨first, next, rounds, rfl, hRounds⟩
  · rintro ⟨first, next, rounds, hFirst, hRounds⟩
    rw [chainLeft_of_operand hOperand hOperator hFirst, chainFrom_success_iff hOperand hOperator]
    exact ⟨rounds, hRounds⟩

end Chain

end Parser

open Scriptlet.Parser

/-- No parser that can be described goes back. -/
theorem Description.neverBack (description : Description) : NeverBack description.parser :=
  description.reads.neverBack

/-- An operand that is found at one place only, and goes back to the start of the text. -/
def Parser.returning (text : List Char) (found : Nat) : Parser Char where
  name := "returning"
  form := .composed
  step _ c :=
    if c.offset = found then .success 'b' (Cursor.place text 0)
    else .failure ⟨c.offset, Labels.single "b", false⟩

end Scriptlet
