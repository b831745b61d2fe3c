import Scriptlet.Parsing.Outcome
import Scriptlet.Text.Letter
import Scriptlet.Text.Quoted

namespace Scriptlet

/-- What a parser is called when its name is empty. The `undefined` form
belongs to a reference whose definition is not known yet. -/
inductive Form where
  | composed
  | constant
  | endOfInput
  | undefined (name : String)
  deriving DecidableEq

/-- A parser with a display name. The step takes the number of recursive
references that may still be entered, and the place where to start. -/
structure Parser (α : Type) where
  name : String
  form : Form
  step : Nat → Cursor → Outcome α

namespace Parser

variable {α β γ : Type}

/-- How a parser is shown in messages. -/
def display (p : Parser α) : String :=
  let shown :=
    if p.name = "" then
      match p.form with
      | .composed => "step"
      | .constant => "<lambda>"
      | .endOfInput => "_eof"
      | .undefined _ => "_undefined"
    else p.name
  "<Parser " ++ shown ++ ">"

/-- One character of a class; the label says which class was expected. -/
def satisfy (accepts : Char → Bool) (label : String) : Parser Char where
  name := label
  form := .composed
  step _ cursor :=
    match cursor.next? with
    | some (c, next) =>
      if accepts c then .success c next else .failure (.here cursor label)
    | none => .failure (.here cursor label)

/-- One particular character. -/
def char (c : Char) : Parser Char :=
  satisfy (fun d => d == c) (Text.quoted (String.singleton c))

/-- One of the listed characters. An empty label counts as none. -/
def oneOf (chars : String) (label : String) : Parser Char :=
  satisfy (fun c => chars.toList.contains c)
    (if label = "" then "one of " ++ Text.quoted chars else label)

/-- One character that is not listed. An empty label counts as none. -/
def noneOf (chars : String) (label : String) : Parser Char :=
  satisfy (fun c => !chars.toList.contains c)
    (if label = "" then "none of " ++ Text.quoted chars else label)

/-- The word as a whole; a partial match fails without consuming. -/
def string (word : String) : Parser String where
  name := Text.quoted word
  form := .composed
  step _ cursor :=
    match cursor.after? word.toList with
    | some next => .success word next
    | none => .failure (.here cursor (Text.quoted word))

/-- One ASCII digit. -/
def digit : Parser Char :=
  satisfy Char.isDigit "digit"

/-- One letter of any script. -/
def letter : Parser Char :=
  satisfy Text.isLetter "letter"

/-- Matches the empty text with a given value. -/
protected def pure (value : α) : Parser α where
  name := "pure"
  form := .constant
  step _ cursor := .success value cursor

/-- Matches where nothing follows. -/
def endOfInput : Parser Unit where
  name := "end of input"
  form := .endOfInput
  step _ cursor :=
    match cursor.rest with
    | [] => .success () cursor
    | _ :: _ => .failure (.here cursor "end of input")

/-- Matches the empty text where the given parser does not match. -/
def notFollowedBy (p : Parser α) (label : String) : Parser Unit where
  name := "not " ++ label
  form := .composed
  step depth cursor :=
    match p.step depth cursor with
    | .success _ _ => .failure (.here cursor label)
    | .failure _ => .success () cursor
    | .halted cause => .halted cause

/-- Changes the value and nothing else. -/
protected def map (f : α → β) (p : Parser α) : Parser β where
  name := p.name
  form := .composed
  step depth cursor := (p.step depth cursor).map f

/-- Continues with a parser that depends on the value found. -/
protected def bind (p : Parser α) (f : α → Parser β) : Parser β where
  name := p.name
  form := .composed
  step depth start :=
    match p.step depth start with
    | .success value reached =>
      match (f value).step depth reached with
      | .failure reason => .failure (reason.later start reached)
      | outcome => outcome
    | .failure reason => .failure reason
    | .halted cause => .halted cause

/-- Reports an uncommitted failure as the absence of one named thing. -/
def label (name : String) (p : Parser α) : Parser α where
  name := name
  form := .composed
  step depth cursor :=
    match p.step depth cursor with
    | .failure reason =>
      if reason.consumed then .failure reason else .failure (.here cursor name)
    | outcome => outcome

/-- Both parsers in order, keeping the second value. -/
def keepRight (p : Parser α) (q : Parser β) : Parser β where
  name := p.name
  form := .composed
  step depth start :=
    match p.step depth start with
    | .success _ reached =>
      match q.step depth reached with
      | .failure reason => .failure (reason.later start reached)
      | outcome => outcome
    | .failure reason => .failure reason
    | .halted cause => .halted cause

/-- Both parsers in order, keeping the first value. -/
def keepLeft (p : Parser α) (q : Parser β) : Parser α where
  name := p.name
  form := .composed
  step depth start :=
    match p.step depth start with
    | .success value reached =>
      match q.step depth reached with
      | .success _ next => .success value next
      | .failure reason => .failure (reason.later start reached)
      | .halted cause => .halted cause
    | .failure reason => .failure reason
    | .halted cause => .halted cause

instance : Functor Parser where
  map := Parser.map

instance : SeqRight Parser where
  seqRight p q := keepRight p (q ())

instance : SeqLeft Parser where
  seqLeft p q := keepLeft p (q ())

/-- Runs the parsers of a list in order from `cursor`, having started at
`start`; `found` holds the values so far, the latest first. -/
def runAll (depth : Nat) (start : Cursor) :
    List (Parser α) → Cursor → List α → Outcome (List α)
  | [], cursor, found => .success found.reverse cursor
  | p :: rest, cursor, found =>
    match p.step depth cursor with
    | .success value next => runAll depth start rest next (value :: found)
    | .failure reason => .failure (reason.later start cursor)
    | .halted cause => .halted cause

/-- All parsers of a list in order, collecting their values. -/
def sequence (parsers : List (Parser α)) : Parser (List α) where
  name := "seq"
  form := .composed
  step depth start := runAll depth start parsers start []

/-- Two parsers in order, keeping both values. -/
def pair (p : Parser α) (q : Parser β) : Parser (α × β) where
  name := "seq"
  form := .composed
  step depth start :=
    match p.step depth start with
    | .success first reached =>
      match q.step depth reached with
      | .success second next => .success (first, second) next
      | .failure reason => .failure (reason.later start reached)
      | .halted cause => .halted cause
    | .failure reason => .failure reason
    | .halted cause => .halted cause

/-- Three parsers in order, keeping all values. -/
def triple (p : Parser α) (q : Parser β) (r : Parser γ) : Parser (α × β × γ) where
  name := "seq"
  form := .composed
  step depth start :=
    match (pair p q).step depth start with
    | .success (first, second) reached =>
      match r.step depth reached with
      | .success third next => .success (first, second, third) next
      | .failure reason => .failure (reason.later start reached)
      | .halted cause => .halted cause
    | .failure reason => .failure reason
    | .halted cause => .halted cause

/-- An opening and a closing part around a middle one, whose value is kept. -/
def between (opening : Parser α) (closing : Parser β) (p : Parser γ) : Parser γ where
  name := p.name
  form := .composed
  step depth start :=
    match opening.step depth start with
    | .success _ inside =>
      match p.step depth inside with
      | .success value reached =>
        match closing.step depth reached with
        | .success _ next => .success value next
        | .failure reason => .failure (reason.later start reached)
        | .halted cause => .halted cause
      | .failure reason => .failure (reason.later start inside)
      | .halted cause => .halted cause
    | .failure reason => .failure reason
    | .halted cause => .halted cause

/-- Tries alternatives in order after earlier ones failed with `failed`. The
first success or committed failure decides. -/
def tryEach (depth : Nat) (cursor : Cursor) : Failure → List (Parser α) → Outcome α
  | failed, [] => .failure failed
  | failed, p :: rest =>
    match p.step depth cursor with
    | .failure reason =>
      if reason.consumed then .failure reason
      else tryEach depth cursor (failed.merge reason) rest
    | outcome => outcome

/-- The first alternative that matches. An alternative is tried only when all
before it failed without being committed. -/
def choice (first : Parser α) (others : List (Parser α)) : Parser α where
  name := "choice"
  form := .composed
  step depth cursor :=
    match first.step depth cursor with
    | .failure reason =>
      if reason.consumed then .failure reason else tryEach depth cursor reason others
    | outcome => outcome

instance : OrElse (Parser α) where
  orElse p q := choice p [q ()]

/-- Takes the commitment off a failure, so that a choice may go on. -/
def attempt (p : Parser α) : Parser α where
  name := p.name
  form := .composed
  step depth cursor :=
    match p.step depth cursor with
    | .failure reason => .failure { reason with consumed := false }
    | outcome => outcome

/-- Matches or stays in place. -/
def optional (p : Parser α) : Parser (Option α) :=
  choice (p.map some) [Parser.pure none]

/-- The rounds of `many`. Every round but the last takes at least one
character, so the characters at hand when the first round begins are as many
further rounds as can be needed. -/
def manyRounds (p : Parser α) (depth : Nat) : List Char → Cursor → List α → Outcome (List α)
  | rounds, cursor, found =>
    match p.step depth cursor with
    | .success value next =>
      if next.offset = cursor.offset then .halted (.emptyRepetition p.display)
      else
        match rounds with
        | [] => .halted (.emptyRepetition p.display)
        | _ :: rounds => manyRounds p depth rounds next (value :: found)
    | .failure reason =>
      if reason.consumed then .failure reason else .success found.reverse cursor
    | .halted cause => .halted cause

/-- As many repetitions as match, possibly none. A committed failure inside a
repetition is passed on, and an empty repetition halts. -/
def many (p : Parser α) : Parser (List α) where
  name := p.name
  form := .composed
  step depth cursor := manyRounds p depth cursor.rest cursor []

/-- At least one repetition. -/
def many1 (p : Parser α) : Parser (List α) :=
  (pair p (many p)).map fun (first, rest) => first :: rest

/-- The rounds of `chainLeft`, with the value and the place reached so far.
As in `manyRounds` the characters at hand only bound the recursion. -/
def chainRounds (operand : Parser α) (operator : Parser (α → α → α)) (depth : Nat)
    (start : Cursor) : List Char → Cursor → α → Outcome α
  | rounds, cursor, left =>
    match operator.step depth cursor with
    | .success combine reached =>
      match operand.step depth reached with
      | .success right next =>
        match rounds with
        | [] => .halted .endless
        | _ :: rounds => chainRounds operand operator depth start rounds next (combine left right)
      | .failure reason => .failure (reason.later start reached)
      | .halted cause => .halted cause
    | .failure reason =>
      if reason.consumed then .failure reason else .success left cursor
    | .halted cause => .halted cause

/-- Operands with operators between them, combined strictly from the left. -/
def chainLeft (operand : Parser α) (operator : Parser (α → α → α)) : Parser α where
  name := "chainl1"
  form := .composed
  step depth start :=
    match operand.step depth start with
    | .success value next => chainRounds operand operator depth start next.rest next value
    | .failure reason => .failure reason
    | .halted cause => .halted cause

/-- A reference that never got a definition. -/
def undefined (name : String) : Parser α where
  name := name
  form := .undefined name
  step _ _ := .halted (.undefinedReference name)

/-- The reference that a definition sees for itself, able to be entered
`levels` times one inside the other. Entering it costs one unit of depth. By the
time that it is entered it is defined, and shown like any other parser. -/
def selfReference (name : String) (define : Parser α → Parser α) : Nat → Parser α
  | 0 => { name, form := .undefined name, step := fun _ _ => .halted .tooDeep }
  | levels + 1 =>
    { name := if name = "" then "step" else name
      form := .undefined name
      step := fun depth cursor =>
        match depth with
        | 0 => .halted .tooDeep
        | depth + 1 => (define (selfReference name define levels)).step depth cursor }

/-- A named parser that may refer to itself. Each entry uses up one unit of
depth, so the levels provided suffice. A definition that is nothing but a
reference without definition leaves the name undefined as well. -/
def recursive (name : String) (define : Parser α → Parser α) : Parser α :=
  match (define (selfReference name define 0)).form with
  | .undefined missing =>
    { name, form := .undefined missing, step := fun _ _ => .halted (.undefinedReference missing) }
  | form =>
    { name, form, step := fun depth cursor => (selfReference name define depth).step depth cursor }

/-- How many recursive references may be open at once when a parser is run. -/
def nestingLimit : Nat := 1000

/-- Applies a parser at an offset of a text, with a limit on the nesting. -/
def runWithin (limit : Nat) (p : Parser α) (text : List Char) (offset : Nat) : Outcome α :=
  p.step limit (Cursor.place text offset)

/-- Applies a parser at an offset of a text. -/
def run (p : Parser α) (text : List Char) (offset : Nat) : Outcome α :=
  p.runWithin nestingLimit text offset

end Parser

end Scriptlet
