import Scriptlet.Proofs.Parsing.Link

namespace Scriptlet

/-- The outcome with less depth is the one with more of it, unless it gave up on
nesting. Giving up is the least outcome of all. -/
inductive Outcome.UpTo {α : Type} : Outcome α → Outcome α → Prop where
  | gaveUp (outcome : Outcome α) : UpTo (.halted .tooDeep) outcome
  | same (outcome : Outcome α) : UpTo outcome outcome

theorem Outcome.UpTo.map {α β : Type} {outcome deeper : Outcome α} (h : outcome.UpTo deeper)
    (f : α → β) : (outcome.map f).UpTo (deeper.map f) := by
  cases h with
  | gaveUp => exact .gaveUp _
  | same => exact .same _

namespace Parser

variable {α β γ : Type} {d d' : Nat} {p : Parser α} {q : Parser β} {r : Parser γ}

/-- Whatever the parser comes to at one depth it also comes to at the other,
unless it gives up. -/
def Lasts (d d' : Nat) (p : Parser α) : Prop :=
  ∀ c, (p.step d c).UpTo (p.step d' c)

theorem lasts_of_eq (h : ∀ c, p.step d c = p.step d' c) : Lasts d d' p := by
  intro c
  rw [h c]
  exact .same _

theorem lasts_pure (value : α) : Lasts d d' (Parser.pure value) :=
  lasts_of_eq fun _ => rfl

theorem lasts_endOfInput : Lasts d d' endOfInput :=
  lasts_of_eq fun _ => rfl

/-! Combinations of parsers that last. -/

theorem Lasts.map (hp : Lasts d d' p) (f : α → β) : Lasts d d' (f <$> p) :=
  fun c => (hp c).map f

theorem Lasts.pair (hp : Lasts d d' p) (hq : Lasts d d' q) : Lasts d d' (Parser.pair p q) := by
  intro c
  have hFirst := hp c
  rw [pair_step, pair_step]
  generalize p.step d c = first, p.step d' c = first' at hFirst
  cases hFirst with
  | gaveUp => exact .gaveUp _
  | same =>
      cases first with
      | failure | halted => exact .same _
      | success value reached =>
          have hSecond := hq reached
          simp only
          generalize q.step d reached = second, q.step d' reached = second' at hSecond
          cases hSecond with
          | gaveUp => exact .gaveUp _
          | same => exact .same _

theorem Lasts.keepRight (hp : Lasts d d' p) (hq : Lasts d d' q) : Lasts d d' (p *> q) := by
  intro c
  rw [keepRight_eq_pair, keepRight_eq_pair]
  exact ((hp.pair hq) c).map Prod.snd

theorem Lasts.keepLeft (hp : Lasts d d' p) (hq : Lasts d d' q) : Lasts d d' (p <* q) := by
  intro c
  rw [keepLeft_eq_pair, keepLeft_eq_pair]
  exact ((hp.pair hq) c).map Prod.fst

theorem Lasts.triple (hp : Lasts d d' p) (hq : Lasts d d' q) (hr : Lasts d d' r) :
    Lasts d d' (Parser.triple p q r) := by
  intro c
  rw [triple_eq_pair, triple_eq_pair]
  exact (((hp.pair hq).pair hr) c).map _

theorem Lasts.between (hp : Lasts d d' p) (hq : Lasts d d' q) (hr : Lasts d d' r) :
    Lasts d d' (Parser.between p q r) := by
  intro c
  rw [between_eq_pair, between_eq_pair]
  exact (((hp.pair hr).pair hq) c).map _

theorem Lasts.attempt (hp : Lasts d d' p) : Lasts d d' (Parser.attempt p) := by
  intro c
  have hInner := hp c
  simp only [Parser.attempt]
  generalize p.step d c = outcome, p.step d' c = outcome' at hInner
  cases hInner with
  | gaveUp => exact .gaveUp _
  | same => exact .same _

section Choice

variable {others : List (Parser α)}

theorem tryEach_lasts (hOthers : ∀ other ∈ others, Lasts d d' other) (c : Cursor)
    (failed : Failure) : (tryEach d c failed others).UpTo (tryEach d' c failed others) := by
  induction others generalizing failed with
  | nil => exact .same _
  | cons p others ih =>
      have hFirst := hOthers p List.mem_cons_self c
      simp only [tryEach]
      generalize p.step d c = outcome, p.step d' c = outcome' at hFirst
      cases hFirst with
      | gaveUp => exact .gaveUp _
      | same =>
          cases outcome with
          | success | halted => exact .same _
          | failure reason =>
              cases hConsumed : reason.consumed with
              | true => simpa [hConsumed] using .same _
              | false =>
                  simp only [hConsumed]
                  exact ih (fun other hOther => hOthers other (List.mem_cons_of_mem p hOther)) _

theorem Lasts.choice (hp : Lasts d d' p) (hOthers : ∀ other ∈ others, Lasts d d' other) :
    Lasts d d' (Parser.choice p others) := by
  intro c
  have hFirst := hp c
  simp only [Parser.choice]
  generalize p.step d c = outcome, p.step d' c = outcome' at hFirst
  cases hFirst with
  | gaveUp => exact .gaveUp _
  | same =>
      cases outcome with
      | success | halted => exact .same _
      | failure reason =>
          cases hConsumed : reason.consumed with
          | true => simpa [hConsumed] using .same _
          | false =>
              simp only [hConsumed]
              exact tryEach_lasts hOthers c reason

theorem Lasts.orElse {other : Parser α} (hp : Lasts d d' p) (hOther : Lasts d d' other) :
    Lasts d d' (p <|> other) := by
  apply hp.choice
  intro q hq
  rw [List.mem_singleton.mp hq]
  exact hOther

theorem Lasts.optional (hp : Lasts d d' p) : Lasts d d' (Parser.optional p) :=
  (hp.map some).orElse (lasts_pure none)

end Choice

section Chain

variable {operator : Parser (α → α → α)} (hp : Lasts d d' p) (hOperator : Lasts d d' operator)

include hp hOperator

/-- A round lasts when the rounds after it do. -/
theorem chainRounds_lasts_of_later (start : Cursor) (rounds : List Char)
    (hLater : ∀ round later, rounds = round :: later → ∀ c left,
      (chainRounds p operator d start later c left).UpTo (chainRounds p operator d' start later c left))
    (c : Cursor) (left : α) :
    (chainRounds p operator d start rounds c left).UpTo
      (chainRounds p operator d' start rounds c left) := by
  have hRound := hOperator c
  rw [chainRounds_eq, chainRounds_eq p operator d']
  generalize operator.step d c = outcome, operator.step d' c = outcome' at hRound
  cases hRound with
  | gaveUp => exact .gaveUp _
  | same =>
      cases outcome with
      | failure | halted => exact .same _
      | success combine reached =>
          have hSecond := hp reached
          simp only
          generalize p.step d reached = second, p.step d' reached = second' at hSecond
          cases hSecond with
          | gaveUp => exact .gaveUp _
          | same =>
              cases second with
              | failure | halted => exact .same _
              | success right next =>
                  cases rounds with
                  | nil => exact .same _
                  | cons round later => exact hLater round later rfl next (combine left right)

theorem chainRounds_lasts (start : Cursor) (rounds : List Char) (c : Cursor) (left : α) :
    (chainRounds p operator d start rounds c left).UpTo
      (chainRounds p operator d' start rounds c left) := by
  induction rounds generalizing c left with
  | nil =>
      apply chainRounds_lasts_of_later hp hOperator
      intro round later hCons
      cases hCons
  | cons round rounds ih =>
      apply chainRounds_lasts_of_later hp hOperator
      intro first later hCons
      cases hCons
      exact ih

theorem Lasts.chainLeft : Lasts d d' (Parser.chainLeft p operator) := by
  intro c
  have hFirst := hp c
  simp only [Parser.chainLeft]
  generalize p.step d c = first, p.step d' c = first' at hFirst
  cases hFirst with
  | gaveUp => exact .gaveUp _
  | same =>
      cases first with
      | failure | halted => exact .same _
      | success value next => exact chainRounds_lasts hp hOperator c next.rest next value

end Chain

end Parser

end Scriptlet
