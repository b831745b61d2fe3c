import Scriptlet.Proofs.CursorInvariant

namespace Scriptlet

variable {α β γ δ : Type} {start mid last : Cursor}

namespace Failure

/-- Where nothing was moved nothing is added to a failure. -/
@[simp] theorem later_self (c : Cursor) (reason : Failure) : reason.later c c = reason := by
  simp [later]

/-- A way in two parts, neither of which goes back, has moved if one of them has. -/
theorem later_later (hFirst : start.offset ≤ mid.offset) (hSecond : mid.offset ≤ last.offset)
    (reason : Failure) : (reason.later mid last).later start mid = reason.later start last := by
  have hMoved : start.offset < last.offset ↔
      mid.offset < last.offset ∨ start.offset < mid.offset := by omega
  simp only [later, hMoved, Bool.decide_or, Bool.or_assoc]

end Failure

namespace Outcome

/-- The outcome of a later part of a sequence as that of the whole, when the parts
before it have moved from `start` to `reached`. -/
def later (start reached : Cursor) : Outcome α → Outcome α
  | success value next => success value next
  | failure reason => failure (reason.later start reached)
  | halted cause => halted cause

@[simp] theorem later_self (c : Cursor) (outcome : Outcome α) : outcome.later c c = outcome := by
  cases outcome with
  | success | halted => rfl
  | failure reason => simp only [later, Failure.later_self]

theorem later_later (hFirst : start.offset ≤ mid.offset) (hSecond : mid.offset ≤ last.offset)
    (outcome : Outcome α) : (outcome.later mid last).later start mid = outcome.later start last := by
  cases outcome with
  | success | halted => rfl
  | failure reason => simp only [later, Failure.later_later hFirst hSecond]

end Outcome

namespace Parser

/-- A match takes some of the characters that follow, possibly none of them. -/
def Reads (p : Parser α) : Prop :=
  ∀ d c value next, p.step d c = .success value next → c.Reaches next

/-- No match ends before the place where it began. -/
def Onward (p : Parser α) : Prop :=
  ∀ d c value next, p.step d c = .success value next → c.offset ≤ next.offset

variable {p : Parser α} {f : α → Parser β} {d : Nat}

theorem Sound.reads {strict : Prop} (hp : Has (Sound strict) p) : Reads p := by
  intro d c value next h
  exact Sound.reaches hp h

theorem Reads.onward (hp : Reads p) : Onward p := by
  intro d c value next h
  exact (hp d c value next h).spans.1

theorem reads_satisfy (accepts : Char → Bool) (label : String) : Reads (satisfy accepts label) := by
  have hSound : Has (Sound False) (satisfy accepts label) := sound_satisfy accepts label
  exact Sound.reads hSound

/-! What follows depends on the value found. -/

theorem bind_of_success {value : α} (h : p.step d start = .success value mid) :
    (Parser.bind p f).step d start = ((f value).step d mid).later start mid := by
  simp only [Parser.bind, h]
  cases (f value).step d mid <;> rfl

theorem bind_of_failure {reason : Failure} (h : p.step d start = .failure reason) :
    (Parser.bind p f).step d start = .failure reason := by
  simp only [Parser.bind, h]

theorem bind_of_halted {cause : Halt} (h : p.step d start = .halted cause) :
    (Parser.bind p f).step d start = .halted cause := by
  simp only [Parser.bind, h]

/-- Only what the continuations do matters. -/
theorem bind_step_congr {g : α → Parser β} (h : ∀ value, (f value).step = (g value).step) :
    (Parser.bind p f).step = (Parser.bind p g).step := by
  funext d c
  simp only [Parser.bind, h]

theorem pure_bind (value : α) (f : α → Parser β) :
    (Parser.bind (Parser.pure value) f).step = (f value).step := by
  funext d c
  have hHere : (Parser.pure value).step d c = .success value c := rfl
  rw [bind_of_success hHere, Outcome.later_self]

theorem bind_pure (p : Parser α) : (Parser.bind p Parser.pure).step = p.step := by
  funext d c
  cases hFirst : p.step d c with
  | success value reached =>
      rw [bind_of_success hFirst]
      rfl
  | failure reason => rw [bind_of_failure hFirst]
  | halted cause => rw [bind_of_halted hFirst]

/-- Whether a failure of the last part is committed is seen from the second part on
and then from the first, or from both at once. -/
theorem bind_assoc (hp : Onward p) (hf : ∀ value, Onward (f value)) (g : β → Parser γ) :
    (Parser.bind (Parser.bind p f) g).step =
      (Parser.bind p fun value => Parser.bind (f value) g).step := by
  funext d start
  cases hFirst : p.step d start with
  | failure reason => rw [bind_of_failure hFirst, bind_of_failure (bind_of_failure hFirst)]
  | halted cause => rw [bind_of_halted hFirst, bind_of_halted (bind_of_halted hFirst)]
  | success value mid =>
      have hBoth := bind_of_success (f := f) hFirst
      rw [bind_of_success hFirst]
      cases hSecond : (f value).step d mid with
      | failure reason =>
          rw [hSecond] at hBoth
          rw [bind_of_failure hBoth, bind_of_failure hSecond]
          rfl
      | halted cause =>
          rw [hSecond] at hBoth
          rw [bind_of_halted hBoth, bind_of_halted hSecond]
          rfl
      | success other last =>
          rw [hSecond] at hBoth
          have hMid := hp d start value mid hFirst
          have hLast := hf value d mid other last hSecond
          rw [bind_of_success hBoth, bind_of_success hSecond, Outcome.later_later hMid hLast]

/-! What follows does not depend on it. -/

theorem keepRight_eq_bind (p : Parser α) (q : Parser β) :
    (p *> q).step = (Parser.bind p fun _ => q).step := rfl

theorem keepLeft_eq_bind (p : Parser α) (q : Parser β) :
    (p <* q).step = (Parser.bind p fun value => (fun _ => value) <$> q).step := by
  funext d start
  simp only [keepLeft_step, keepLeft, Parser.bind, map_step]
  cases p.step d start with
  | failure | halted => rfl
  | success value reached =>
      simp only
      cases q.step d reached <;> rfl

theorem between_eq_triple (p : Parser α) (q : Parser β) (r : Parser γ) :
    (between p q r).step = ((fun (_, value, _) => value) <$> triple p r q).step := by
  funext d c
  rw [map_step, triple_eq_pair, between_eq_pair]
  cases (pair (pair p r) q).step d c <;> rfl

/-- Two parts in a list, for any way to see both of their values as of one type. -/
theorem sequence_two (p : Parser α) (q : Parser β) (f : α → δ) (g : β → δ) :
    (sequence [f <$> p, g <$> q]).step = ((fun (x, y) => [f x, g y]) <$> pair p q).step := by
  funext d start
  simp only [sequence, runAll, map_step, pair_step]
  cases p.step d start with
  | failure reason => simp [Outcome.map]
  | halted => rfl
  | success value reached =>
      simp only [Outcome.map]
      cases q.step d reached <;> rfl

theorem sequence_three (p : Parser α) (q : Parser β) (r : Parser γ) (f : α → δ) (g : β → δ)
    (h : γ → δ) :
    (sequence [f <$> p, g <$> q, h <$> r]).step =
      ((fun (x, y, z) => [f x, g y, h z]) <$> triple p q r).step := by
  funext d start
  simp only [sequence, runAll, map_step, triple, pair_step]
  cases p.step d start with
  | failure reason => simp [Outcome.map]
  | halted => rfl
  | success value mid =>
      simp only [Outcome.map]
      cases q.step d mid with
      | failure | halted => rfl
      | success other reached =>
          simp only
          cases r.step d reached <;> rfl

end Parser

open Scriptlet.Parser

/-- Whatever a description stands for, a match of it takes characters that follow. -/
theorem Description.reads (description : Description) : Reads description.parser := by
  have hKept : KeptByAttempts (Sound False) := sound_keptByAttempts not_false
  exact Sound.reads (description.parser_has (sound_inherited False) (.inr hKept))

/-- Ways to write a sequence that come to the same at every place and with every depth
left: the combination of two or three parts, the list of their values of which one is
kept, and the continuation that depends on the value before it. Continuations can be
grouped in any way, if no match of the parts before the last one goes back, and a
constant in front of one or behind it changes nothing. -/
theorem sequences_agree (p : Parser α) (q : Parser β) (r : Parser γ) :
    (p *> q).step = (Prod.snd <$> pair p q).step ∧
    (p *> q).step = (Parser.bind p fun _ => q).step ∧
    (p <* q).step = (Prod.fst <$> pair p q).step ∧
    (p <* q).step = (Parser.bind p fun value => (fun _ => value) <$> q).step ∧
    (between p r q).step = (p *> q <* r).step ∧
    (between p r q).step = ((fun (_, value, _) => value) <$> triple p q r).step ∧
    (∀ (δ : Type) (f : α → δ) (g : β → δ) (h : γ → δ),
      (sequence [f <$> p, g <$> q]).step = ((fun (x, y) => [f x, g y]) <$> pair p q).step ∧
      (sequence [f <$> p, g <$> q, h <$> r]).step =
        ((fun (x, y, z) => [f x, g y, h z]) <$> triple p q r).step) ∧
    (∀ (f : α → Parser β) (g : β → Parser γ), Onward p → (∀ value, Onward (f value)) →
      (Parser.bind (Parser.bind p f) g).step =
        (Parser.bind p fun value => Parser.bind (f value) g).step) ∧
    (∀ (value : α) (f : α → Parser β), (Parser.bind (Parser.pure value) f).step = (f value).step) ∧
    (Parser.bind p Parser.pure).step = p.step := by
  refine ⟨?_, keepRight_eq_bind p q, ?_, keepLeft_eq_bind p q, ?_, between_eq_triple p r q, ?_, ?_,
    pure_bind, bind_pure p⟩
  · funext d c
    exact keepRight_eq_pair p q d c
  · funext d c
    exact keepLeft_eq_pair p q d c
  · funext d c
    exact (keepLeft_keepRight_step p q r).symm
  · intro δ f g h
    exact ⟨sequence_two p q f g, sequence_three p q r f g h⟩
  · intro f g hp hf
    exact bind_assoc hp hf g

/-- A letter, the same letter once more, and another one, on a text in which the last
one is missing: with either grouping the failure is committed. -/
theorem sequences_agree_letters :
    (∀ x, Onward (char x)) ∧
      (Parser.bind (Parser.bind (char 'a') char) fun _ => char 'b').step =
        (Parser.bind (char 'a') fun x => Parser.bind (char x) fun _ => char 'b').step ∧
      ∃ reason, (Parser.bind (char 'a') fun x => Parser.bind (char x) fun _ => char 'b').step 1
        (Cursor.place "aac".toList 0) = .failure reason ∧ reason.offset = 2 ∧
          reason.consumed = true := by
  have hOnward : ∀ x, Onward (char x) := fun x => (reads_satisfy _ _).onward
  obtain ⟨_, _, _, _, _, _, _, hGrouping, _, _⟩ :=
    sequences_agree (char 'a') (char 'a') (char 'b')
  have hSame := hGrouping char (fun _ => char 'b') (hOnward 'a') hOnward
  exact ⟨hOnward, hSame, _, rfl, rfl, rfl⟩

end Scriptlet
