import Scriptlet.Proofs.Descriptions
import Scriptlet.Source

namespace Scriptlet

namespace Cursor

/-- The same place when more characters precede it. -/
def shift (count : Nat) (c : Cursor) : Cursor where
  offset := count + c.offset
  rest := c.rest
  pastEnd := c.pastEnd
  rest_of_pastEnd := c.rest_of_pastEnd

variable {count : Nat}

@[simp] theorem offset_shift (c : Cursor) : (c.shift count).offset = count + c.offset := rfl

@[simp] theorem rest_shift (c : Cursor) : (c.shift count).rest = c.rest := rfl

@[simp] theorem pastEnd_shift (c : Cursor) : (c.shift count).pastEnd = c.pastEnd := rfl

theorem skip_shift (c : Cursor) (n : Nat) : (c.shift count).skip n = (c.skip n).shift count := by
  simp only [skip, shift, Nat.add_assoc]

theorem next?_shift (c : Cursor) :
    (c.shift count).next? = c.next?.map fun (x, next) => (x, next.shift count) := by
  simp only [next?, rest_shift, skip_shift, Option.map_map]
  rfl

theorem after?_shift (c : Cursor) (word : List Char) :
    (c.shift count).after? word = (c.after? word).map (shift count) := by
  simp only [after?, rest_shift, pastEnd_shift, skip_shift, apply_ite (Option.map _),
    Option.map_some, Option.map_none]

/-- Any place in a text is the start of what follows there. -/
theorem place_eq_shift {text : List Char} {pos : Nat} (h : pos ≤ text.length) :
    place text pos = (place (text.drop pos) 0).shift pos := by
  have hInside : ¬ text.length < pos := Nat.not_lt.mpr h
  simp [place, shift, hInside]

end Cursor

namespace Failure

variable {count : Nat}

def shift (count : Nat) (reason : Failure) : Failure :=
  { reason with offset := count + reason.offset }

@[simp] theorem consumed_shift (reason : Failure) :
    (reason.shift count).consumed = reason.consumed := rfl

/-- Whether a sequence has moved is seen from where it started. -/
theorem later_shift (start reached : Cursor) (reason : Failure) :
    (reason.shift count).later (start.shift count) (reached.shift count) =
      (reason.later start reached).shift count := by
  simp only [later, shift, Cursor.offset_shift, Nat.add_lt_add_iff_left]

/-- Which of two alternatives got further does not depend on where they started. -/
theorem merge_shift (left right : Failure) :
    (left.shift count).merge (right.shift count) = (left.merge right).shift count := by
  simp only [merge, shift, Nat.add_lt_add_iff_left]
  split
  · rfl
  · split <;> rfl

end Failure

namespace Outcome

variable {α β : Type} {count : Nat}

/-- The same outcome, `count` characters further on. -/
def shift (count : Nat) : Outcome α → Outcome α
  | success value next => success value (next.shift count)
  | failure reason => failure (reason.shift count)
  | halted cause => halted cause

@[simp] theorem shift_success (value : α) (next : Cursor) :
    (success value next).shift count = success value (next.shift count) := rfl

@[simp] theorem shift_failure (reason : Failure) :
    (failure reason : Outcome α).shift count = failure (reason.shift count) := rfl

@[simp] theorem shift_halted (cause : Halt) :
    (halted cause : Outcome α).shift count = halted cause := rfl

/-- What comes after a failure that is not committed. -/
theorem shift_unlessCommitted (reason : Failure) (other : Outcome α) :
    (if (reason.shift count).consumed then failure (reason.shift count) else other.shift count) =
      (if reason.consumed then failure reason else other).shift count := by
  cases hConsumed : reason.consumed <;> simp [hConsumed]

theorem map_shift (f : α → β) (outcome : Outcome α) :
    (outcome.shift count).map f = (outcome.map f).shift count := by
  cases outcome <;> rfl

end Outcome

namespace Parser

open Outcome (shift_success shift_failure shift_halted)

/-- Where it starts shows in nothing but the offsets. -/
def OffsetInvariant (α : Type) (f : Cursor → Outcome α) : Prop :=
  ∀ count c, f (c.shift count) = (f c).shift count

variable {α β : Type} {p : Parser α} {d count : Nat}

theorem invariant_satisfy (accepts : Char → Bool) (label : String) :
    Has OffsetInvariant (satisfy accepts label) := by
  intro d count c
  simp only [satisfy, Cursor.next?_shift]
  cases c.next? with
  | none => rfl
  | some found =>
      simp only [Option.map_some]
      split <;> rfl

theorem invariant_string (word : String) : Has OffsetInvariant (string word) := by
  intro d count c
  simp only [string, Cursor.after?_shift]
  cases c.after? word.toList <;> rfl

theorem invariant_endOfInput : Has OffsetInvariant endOfInput := by
  intro d count c
  simp only [endOfInput, Cursor.rest_shift]
  cases c.rest <;> rfl

theorem invariant_notFollowedBy (label : String) (hp : Has OffsetInvariant p) :
    Has OffsetInvariant (notFollowedBy p label) := by
  intro d count c
  simp only [notFollowedBy, hp d count c]
  cases p.step d c <;> rfl

theorem invariant_map (f : α → β) (hp : Has OffsetInvariant p) :
    Has OffsetInvariant (f <$> p) := by
  intro d count c
  rw [map_step, map_step, hp d count c, Outcome.map_shift]

theorem invariant_bind {f : α → Parser β} (hp : Has OffsetInvariant p)
    (hf : ∀ value, Has OffsetInvariant (f value)) : Has OffsetInvariant (Parser.bind p f) := by
  intro d count start
  simp only [Parser.bind, hp d count start]
  cases p.step d start with
  | failure | halted => rfl
  | success value reached =>
      simp only [shift_success, hf value d count reached]
      cases (f value).step d reached with
      | success | halted => rfl
      | failure reason => simp only [shift_failure, Failure.later_shift]

theorem invariant_label (name : String) (hp : Has OffsetInvariant p) :
    Has OffsetInvariant (label name p) := by
  intro d count c
  simp only [label, hp d count c]
  cases p.step d c with
  | success | halted => rfl
  | failure reason => exact Outcome.shift_unlessCommitted reason (.failure (.here c name))

theorem invariant_attempt : KeptByAttempts OffsetInvariant := by
  intro α p hp d count c
  simp only [attempt, hp d count c]
  cases p.step d c <;> rfl

/-! Loops, along the rounds that they take. The characters at hand are the same. -/

section Loops

variable {parsers others : List (Parser α)} {operator : Parser (α → α → α)}

theorem runAll_shift (hParsers : ∀ p ∈ parsers, Has OffsetInvariant p) (start c : Cursor)
    (found : List α) :
    runAll d (start.shift count) parsers (c.shift count) found =
      (runAll d start parsers c found).shift count := by
  induction parsers generalizing c found with
  | nil => rfl
  | cons p parsers ih =>
      simp only [runAll, hParsers p List.mem_cons_self d count c]
      cases p.step d c with
      | success value next => exact ih (fun q hq => hParsers q (List.mem_cons_of_mem p hq)) next _
      | failure reason => simp only [shift_failure, Failure.later_shift]
      | halted cause => rfl

theorem tryEach_shift (hOthers : ∀ q ∈ others, Has OffsetInvariant q) (c : Cursor)
    (failed : Failure) :
    tryEach d (c.shift count) (failed.shift count) others =
      (tryEach d c failed others).shift count := by
  induction others generalizing failed with
  | nil => rfl
  | cons p others ih =>
      have hLater := ih fun q hq => hOthers q (List.mem_cons_of_mem p hq)
      simp only [tryEach, hOthers p List.mem_cons_self d count c]
      cases p.step d c with
      | success | halted => rfl
      | failure reason =>
          simp only [shift_failure, Failure.merge_shift, hLater]
          exact Outcome.shift_unlessCommitted reason (tryEach d c (failed.merge reason) others)

theorem invariant_choice (hp : Has OffsetInvariant p)
    (hOthers : ∀ q ∈ others, Has OffsetInvariant q) : Has OffsetInvariant (choice p others) := by
  intro d count c
  simp only [choice, hp d count c]
  cases p.step d c with
  | success | halted => rfl
  | failure reason =>
      simp only [shift_failure, tryEach_shift hOthers]
      exact Outcome.shift_unlessCommitted reason (tryEach d c reason others)

theorem manyRounds_shift (hp : Has OffsetInvariant p) (rounds : List Char) (c : Cursor)
    (found : List α) :
    manyRounds p d rounds (c.shift count) found = (manyRounds p d rounds c found).shift count := by
  induction rounds generalizing c found with
  | nil =>
      rw [manyRounds, manyRounds, hp d count c]
      cases p.step d c with
      | halted cause => rfl
      | failure reason => exact Outcome.shift_unlessCommitted reason (.success found.reverse c)
      | success value next => simp only [shift_success, ite_self, shift_halted]
  | cons round rounds ih =>
      rw [manyRounds, manyRounds, hp d count c]
      cases p.step d c with
      | halted cause => rfl
      | failure reason => exact Outcome.shift_unlessCommitted reason (.success found.reverse c)
      | success value next =>
          simp only [shift_success, Cursor.offset_shift, Nat.add_left_cancel_iff]
          split
          · rfl
          · exact ih next _

theorem chainRounds_shift (hp : Has OffsetInvariant p) (hOperator : Has OffsetInvariant operator)
    (start : Cursor) (rounds : List Char) (c : Cursor) (left : α) :
    chainRounds p operator d (start.shift count) rounds (c.shift count) left =
      (chainRounds p operator d start rounds c left).shift count := by
  induction rounds generalizing c left with
  | nil =>
      rw [chainRounds, chainRounds, hOperator d count c]
      cases operator.step d c with
      | halted cause => rfl
      | failure reason => exact Outcome.shift_unlessCommitted reason (.success left c)
      | success combine reached =>
          simp only [shift_success, hp d count reached]
          cases p.step d reached with
          | success | halted => rfl
          | failure reason => simp only [shift_failure, Failure.later_shift]
  | cons round rounds ih =>
      rw [chainRounds, chainRounds, hOperator d count c]
      cases operator.step d c with
      | halted cause => rfl
      | failure reason => exact Outcome.shift_unlessCommitted reason (.success left c)
      | success combine reached =>
          simp only [shift_success, hp d count reached]
          cases p.step d reached with
          | halted cause => rfl
          | failure reason => simp only [shift_failure, Failure.later_shift]
          | success right next => exact ih next _

end Loops

theorem invariant_chainLeft {operator : Parser (α → α → α)} (hp : Has OffsetInvariant p)
    (hOperator : Has OffsetInvariant operator) : Has OffsetInvariant (chainLeft p operator) := by
  intro d count start
  simp only [chainLeft, hp d count start]
  cases p.step d start with
  | failure | halted => rfl
  | success value next => exact chainRounds_shift hp hOperator start next.rest next value

theorem invariant_inherited : Inherited OffsetInvariant where
  halted _ := fun _ _ => rfl
  satisfy := invariant_satisfy
  string := invariant_string
  pure _ := fun _ _ _ => rfl
  endOfInput := invariant_endOfInput
  notFollowedBy := invariant_notFollowedBy
  map := invariant_map
  bind := invariant_bind
  label := invariant_label
  sequence hParsers := fun _ _ c => runAll_shift hParsers c c []
  choice := invariant_choice
  many hp := fun _ _ c => manyRounds_shift hp c.rest c []
  chainLeft := invariant_chainLeft

theorem runWithin_shift (hp : Has OffsetInvariant p) (limit : Nat) {text : List Char} {pos : Nat}
    (h : pos ≤ text.length) :
    p.runWithin limit text pos = (p.runWithin limit (text.drop pos) 0).shift pos := by
  rw [runWithin, runWithin, Cursor.place_eq_shift h, hp]

end Parser

/-- The same complaint about the same characters, `count` characters further on. Where
that is in lines and columns, and whether there is a hint, is left to the text. -/
structure ParseError.Shifted (count : Nat) (error error' : ParseError) : Prop where
  offset : error'.offset = count + error.offset
  expected : error'.expected = error.expected
  filename : error'.filename = error.filename
  message : error'.message = error.message

/-- What is found at an offset is found there in what follows an earlier one. -/
theorem ParseError.place_shifted (text : List Char) (pos offset : Nat) (expected : List String)
    (filename : String) (message : Option String) :
    (place offset expected (text.drop pos) filename message).Shifted pos
      (place (pos + offset) expected text filename message) where
  offset := rfl
  expected := rfl
  filename := rfl
  message := by simp only [place, found, List.getElem?_drop]

namespace Source

variable {α : Type}

/-- The same value or the same complaint, `count` characters further on. -/
inductive Shifted (count : Nat) : Except Fault (α × Nat) → Except Fault (α × Nat) → Prop where
  | found (value : α) (last : Nat) : Shifted count (.ok (value, last)) (.ok (value, count + last))
  | rejected {error error' : ParseError} (h : error.Shifted count error') :
      Shifted count (.error (.rejected error)) (.error (.rejected error'))
  | halted (cause : Halt) : Shifted count (.error (.halted cause)) (.error (.halted cause))

open Scriptlet.Parser in
theorem apply_shifted {p : Parser α} (hp : Has OffsetInvariant p) (source : Source) {pos : Nat}
    (h : pos ≤ source.text.length) :
    Shifted pos (apply { source with text := source.text.drop pos } p 0) (source.apply p pos) := by
  simp only [apply, applyWithin]
  rw [Cursor.place_eq_shift h, hp]
  cases p.step nestingLimit (Cursor.place (source.text.drop pos) 0) with
  | success value next => exact .found value next.offset
  | failure reason => exact .rejected (ParseError.place_shifted source.text pos _ _ _ none)
  | halted cause =>
      cases cause with
      | tooDeep => exact .rejected (ParseError.place_shifted source.text pos 0 _ _ (some _))
      | emptyRepetition | undefinedReference | endless => exact .halted _

end Source

open Scriptlet.Parser

/-- Parsing at an offset sees only the rest of the text. Any parser that is put together
from the basic ones, recursive ones included, does at an offset what it does at the start
of the rest: it comes to the same value, expects the same and is committed alike, or halts
for the same reason, and ends as much further on as it started. So does every production
that is applied to a source. -/
theorem parsing_sees_rest (source : Source) (pos : Nat) (h : pos ≤ source.text.length) :
    (∀ (description : Description) (limit : Nat),
      description.parser.runWithin limit source.text pos =
        (description.parser.runWithin limit (source.text.drop pos) 0).shift pos) ∧
    ∀ named : Production,
      Source.Shifted pos (Source.apply { source with text := source.text.drop pos } named.parser 0)
        (source.apply named.parser pos) := by
  have hKept : KeptByAttempts OffsetInvariant := invariant_attempt
  refine ⟨fun description limit => ?_, fun named => ?_⟩
  · exact runWithin_shift (description.parser_has invariant_inherited (.inr hKept)) limit h
  · exact source.apply_shifted (invariant_inherited.production named (.inr hKept)) h

/-- A number behind a bracket, and one behind an equals sign: with what precedes them left
out they are found at the start. -/
theorem parsing_sees_rest_number :
    (Description.many1 .digit).parser.runWithin 1 "(12)".toList 1 =
        ((Description.many1 .digit).parser.runWithin 1 "12)".toList 0).shift 1 ∧
      Source.Shifted 4 (Source.apply ⟨"numbers", "5; y".toList⟩ Production.integer.parser 0)
        (Source.apply ⟨"numbers", "x = 5; y".toList⟩ Production.integer.parser 4) ∧
      (Source.apply ⟨"numbers", "5; y".toList⟩ Production.integer.parser 0).map Prod.snd = .ok 1 := by
  have hDigits := (parsing_sees_rest ⟨"digits", "(12)".toList⟩ 1 (by decide)).1
  have hInteger := (parsing_sees_rest ⟨"numbers", "x = 5; y".toList⟩ 4 (by decide)).2 .integer
  exact ⟨hDigits (.many1 .digit) 1, hInteger, rfl⟩

end Scriptlet
