import Scriptlet.Proofs.Parsing.Step

namespace Scriptlet

/-- How two runs go side by side: which places correspond to each other, and
which failures. Failures that correspond still do so after a sequence has
passed them on. -/
structure Link where
  cursors : Cursor → Cursor → Prop
  failures : Failure → Failure → Prop
  later : ∀ {start start' reached reached' : Cursor} {reason reason' : Failure},
    cursors start start' → cursors reached reached' → failures reason reason' →
      failures (reason.later start reached) (reason'.later start' reached')

/-- Both runs come to the same value at places that correspond, or to failures
that correspond, or they halt for the same reason. -/
inductive Outcome.Linked {α : Type} (L : Link) : Outcome α → Outcome α → Prop where
  | success (value : α) {next next' : Cursor} (h : L.cursors next next') :
      Linked L (.success value next) (.success value next')
  | failure {reason reason' : Failure} (h : L.failures reason reason') :
      Linked L (.failure reason) (.failure reason')
  | halted (cause : Halt) : Linked L (.halted cause) (.halted cause)

theorem Outcome.Linked.map {α β : Type} {L : Link} {x y : Outcome α} (h : x.Linked L y)
    (f : α → β) : (x.map f).Linked L (y.map f) := by
  cases h with
  | success value h => exact .success (f value) h
  | failure h => exact .failure h
  | halted cause => exact .halted cause

namespace Parser

variable {α β γ : Type} {L : Link} {d : Nat}

/-- Two parsers that do the same wherever their places correspond. -/
def Linked (L : Link) (d : Nat) (p p' : Parser α) : Prop :=
  ∀ c c', L.cursors c c' → (p.step d c).Linked L (p'.step d c')

/-- Every match takes at least one character. -/
def Moves (d : Nat) (p : Parser α) : Prop :=
  ∀ c value next, p.step d c = .success value next → next.rest.length < c.rest.length

/-- No match goes back in the text. -/
def Keeps (d : Nat) (p : Parser α) : Prop :=
  ∀ c value next, p.step d c = .success value next → next.rest.length ≤ c.rest.length

/-- No failure keeps a choice from trying its later alternatives. -/
def NeverCommits (d : Nat) (p : Parser α) : Prop :=
  ∀ c reason, p.step d c = .failure reason → reason.consumed = false

theorem Moves.map {p : Parser α} (hp : Moves d p) (f : α → β) : Moves d (f <$> p) := by
  intro c value next h
  obtain ⟨inner, hInner⟩ := Outcome.success_of_map h
  exact hp c inner next hInner

theorem NeverCommits.map {p : Parser α} (hp : NeverCommits d p) (f : α → β) :
    NeverCommits d (f <$> p) := by
  intro c reason h
  exact hp c reason (Outcome.failure_of_map h)

/-! Combinations of linked parsers. -/

section Combined

variable {p p' : Parser α} {q q' : Parser β} {r r' : Parser γ}

theorem Linked.map (hp : Linked L d p p') (f : α → β) : Linked L d (f <$> p) (f <$> p') := by
  intro c c' h
  exact (hp c c' h).map f

/-- A pair does the same from places where its first part does. -/
theorem pair_linked {c c' : Cursor} (h : L.cursors c c')
    (hFirst : (p.step d c).Linked L (p'.step d c')) (hq : Linked L d q q') :
    ((pair p q).step d c).Linked L ((pair p' q').step d c') := by
  rw [pair_step, pair_step]
  generalize p.step d c = first, p'.step d c' = first' at hFirst
  cases hFirst with
  | failure hReason => exact .failure hReason
  | halted cause => exact .halted cause
  | success value hReached =>
      have hSecond := hq _ _ hReached
      simp only
      generalize q.step d _ = second, q'.step d _ = second' at hSecond
      cases hSecond with
      | success other hNext => exact .success (value, other) hNext
      | failure hReason => exact .failure (L.later h hReached hReason)
      | halted cause => exact .halted cause

theorem Linked.pair (hp : Linked L d p p') (hq : Linked L d q q') :
    Linked L d (Parser.pair p q) (Parser.pair p' q') := by
  intro c c' h
  exact pair_linked h (hp c c' h) hq

theorem Linked.keepRight (hp : Linked L d p p') (hq : Linked L d q q') :
    Linked L d (p *> q) (p' *> q') := by
  intro c c' h
  rw [keepRight_eq_pair, keepRight_eq_pair]
  exact ((hp.pair hq) c c' h).map Prod.snd

theorem Linked.keepLeft (hp : Linked L d p p') (hq : Linked L d q q') :
    Linked L d (p <* q) (p' <* q') := by
  intro c c' h
  rw [keepLeft_eq_pair, keepLeft_eq_pair]
  exact ((hp.pair hq) c c' h).map Prod.fst

theorem Linked.triple (hp : Linked L d p p') (hq : Linked L d q q') (hr : Linked L d r r') :
    Linked L d (Parser.triple p q r) (Parser.triple p' q' r') := by
  intro c c' h
  rw [triple_eq_pair, triple_eq_pair]
  exact (((hp.pair hq).pair hr) c c' h).map _

theorem Linked.between (hp : Linked L d p p') (hq : Linked L d q q') (hr : Linked L d r r') :
    Linked L d (Parser.between p q r) (Parser.between p' q' r') := by
  intro c c' h
  rw [between_eq_pair, between_eq_pair]
  exact (((hp.pair hr).pair hq) c c' h).map _

end Combined

/-! Chains. -/

section Chain

variable {p p' : Parser α} {operator operator' : Parser (α → α → α)}

/-- One round, whether there are more of them or not. -/
theorem chainRounds_eq (p : Parser α) (operator : Parser (α → α → α)) (d : Nat) (start : Cursor)
    (rounds : List Char) (c : Cursor) (left : α) :
    chainRounds p operator d start rounds c left =
      match operator.step d c with
      | .success combine reached =>
        match p.step d reached with
        | .success right next =>
          match rounds with
          | [] => .halted .endless
          | _ :: rounds => chainRounds p operator d start rounds next (combine left right)
        | .failure reason => .failure (reason.later start reached)
        | .halted cause => .halted cause
      | .failure reason => if reason.consumed then .failure reason else .success left c
      | .halted cause => .halted cause := by
  exact chainRounds.eq_def p operator d start rounds c left

variable {start c reached : Cursor} {rounds : List Char} {left : α}

theorem chainRounds_stop {reason : Failure} (h : operator.step d c = .failure reason)
    (hFree : reason.consumed = false) :
    chainRounds p operator d start rounds c left = .success left c := by
  simp [chainRounds_eq, h, hFree]

theorem chainRounds_halt {cause : Halt} (h : operator.step d c = .halted cause) :
    chainRounds p operator d start rounds c left = .halted cause := by
  simp [chainRounds_eq, h]

theorem chainRounds_round {combine : α → α → α} (h : operator.step d c = .success combine reached) :
    chainRounds p operator d start rounds c left =
      match p.step d reached with
      | .success right next =>
        match rounds with
        | [] => .halted .endless
        | _ :: rounds => chainRounds p operator d start rounds next (combine left right)
      | .failure reason => .failure (reason.later start reached)
      | .halted cause => .halted cause := by
  have hRound := chainRounds_eq p operator d start rounds c left
  rw [h] at hRound
  exact hRound

variable (hOperand : Linked L d p p') (hOperator : Linked L d operator operator')
  (hFree : NeverCommits d operator) (hFree' : NeverCommits d operator')
  (hMoves : Moves d p) (hMoves' : Moves d p')
  (hOperatorMoves : Moves d operator) (hOperatorMoves' : Moves d operator')

include hOperand hOperator hFree hFree' hMoves hMoves' hOperatorMoves hOperatorMoves'

/-- The rounds go alike as long as neither side can run out of them. The two
texts need not be equally long. -/
theorem chainRounds_linked {start start' : Cursor} (hStart : L.cursors start start')
    (rounds rounds' : List Char) (c c' : Cursor) (left : α) (h : L.cursors c c')
    (hRounds : c.rest.length ≤ rounds.length) (hRounds' : c'.rest.length ≤ rounds'.length) :
    (chainRounds p operator d start rounds c left).Linked L
      (chainRounds p' operator' d start' rounds' c' left) := by
  induction rounds generalizing rounds' c c' left with
  | nil =>
      have hRound := hOperator c c' h
      generalize hLeft : operator.step d c = outcome, hRight : operator'.step d c' = outcome' at hRound
      cases hRound with
      | success combine hReached =>
          -- An operator needs a character, and there is none left.
          have hShorter := hOperatorMoves c _ _ hLeft
          simp only [List.length_nil] at hRounds
          omega
      | failure hReason =>
          rw [chainRounds_stop hLeft (hFree c _ hLeft), chainRounds_stop hRight (hFree' c' _ hRight)]
          exact .success left h
      | halted cause =>
          rw [chainRounds_halt hLeft, chainRounds_halt hRight]
          exact .halted cause
  | cons round rounds ih =>
      have hRound := hOperator c c' h
      generalize hLeft : operator.step d c = outcome, hRight : operator'.step d c' = outcome' at hRound
      cases hRound with
      | failure hReason =>
          rw [chainRounds_stop hLeft (hFree c _ hLeft), chainRounds_stop hRight (hFree' c' _ hRight)]
          exact .success left h
      | halted cause =>
          rw [chainRounds_halt hLeft, chainRounds_halt hRight]
          exact .halted cause
      | @success combine reached reached' hReached =>
          have hShorter := hOperatorMoves c _ _ hLeft
          have hShorter' := hOperatorMoves' c' _ _ hRight
          have hSecond := hOperand _ _ hReached
          rw [chainRounds_round hLeft, chainRounds_round hRight]
          generalize hNext : p.step d reached = second, hNext' : p'.step d reached' = second' at hSecond
          cases hSecond with
          | failure hReason => exact .failure (L.later hStart hReached hReason)
          | halted cause => exact .halted cause
          | success right hNextLinked =>
              have hLast := hMoves reached _ _ hNext
              have hLast' := hMoves' reached' _ _ hNext'
              cases rounds' with
              | nil =>
                  simp only [List.length_nil] at hRounds'
                  omega
              | cons round' rounds' =>
                  simp only [List.length_cons] at hRounds hRounds'
                  apply ih
                  · exact hNextLinked
                  · omega
                  · omega

theorem Linked.chainLeft :
    Linked L d (Parser.chainLeft p operator) (Parser.chainLeft p' operator') := by
  intro c c' h
  have hFirst := hOperand c c' h
  simp only [Parser.chainLeft]
  generalize p.step d c = first, p'.step d c' = first' at hFirst
  cases hFirst with
  | failure hReason => exact .failure hReason
  | halted cause => exact .halted cause
  | success value hNext =>
      apply chainRounds_linked hOperand hOperator hFree hFree' hMoves hMoves' hOperatorMoves
        hOperatorMoves' h
      · exact hNext
      · exact Nat.le_refl _
      · exact Nat.le_refl _

end Chain

end Parser

end Scriptlet
