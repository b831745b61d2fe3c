import Scriptlet.Parsing.Cursor
import Scriptlet.Parsing.Labels

namespace Scriptlet

/-- Why a parser does not match: the offset it got to, what it was looking for
there, and whether it is committed. A committed failure forbids a choice to
try its later alternatives. -/
structure Failure where
  offset : Nat
  expected : Labels
  consumed : Bool

namespace Failure

/-- A failure at the very place where the parser was applied. -/
def here (cursor : Cursor) (label : String) : Failure :=
  ⟨cursor.offset, Labels.single label, false⟩

/-- A failure of a later part of a sequence: it is committed also when the
parts before it have moved from `start` to `reached`. -/
def later (start reached : Cursor) (failure : Failure) : Failure :=
  { failure with consumed := failure.consumed || decide (start.offset < reached.offset) }

/-- Of two failed alternatives the one that got further counts. When they got
equally far, either label would have done. -/
def merge (left right : Failure) : Failure :=
  if right.offset < left.offset then left
  else if left.offset < right.offset then right
  else ⟨left.offset, left.expected.union right.expected, left.consumed || right.consumed⟩

end Failure

/-- Reasons to give up that are not about the text: recursion beyond the
nesting limit, a repetition of something empty, a reference that was never
given a meaning, and a loop whose rounds never move. -/
inductive Halt where
  | tooDeep
  | emptyRepetition (parser : String)
  | undefinedReference (name : String)
  | endless
  deriving DecidableEq

/-- The result of applying a parser at a place. Halting is no failure: no
choice, repetition or lookahead recovers from it. -/
inductive Outcome (α : Type) where
  | success (value : α) (next : Cursor)
  | failure (reason : Failure)
  | halted (cause : Halt)

namespace Outcome

variable {α β : Type}

def map (f : α → β) : Outcome α → Outcome β
  | success value next => success (f value) next
  | failure reason => failure reason
  | halted cause => halted cause

end Outcome

end Scriptlet
