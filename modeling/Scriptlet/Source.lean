import Scriptlet.Diagnostic.ParseError
import Scriptlet.Parsing.Parser

namespace Scriptlet

/-- A named text to be parsed. -/
structure Source where
  filename : String
  text : List Char

/-- Why no value came out of a source: the text is at fault, or the parser is. -/
inductive Fault where
  | rejected (error : ParseError)
  | halted (cause : Halt)

namespace Source

variable {α : Type}

/-- Reads the outcome of a parser started at an offset. Nesting that is too deep
counts as an error of the text, at the offset where the parser started. -/
def conclude (source : Source) (start : Nat) : Outcome α → Except Fault (α × Cursor)
  | .success value next => .ok (value, next)
  | .failure reason =>
    .error <| .rejected <|
      .place reason.offset reason.expected.toList source.text source.filename none
  | .halted .tooDeep =>
    .error <| .rejected <|
      .place start [] source.text source.filename (some "input is nested too deeply to parse")
  | .halted cause => .error (.halted cause)

/-- Applies a parser at a cursor of the source, with a limit on the nesting. -/
def applyWithin (limit : Nat) (source : Source) (p : Parser α) (cursor : Cursor) :
    Except Fault (α × Cursor) :=
  source.conclude cursor.offset (p.step limit cursor)

/-- Applies a parser at an offset of the source; the answer ends with the offset
reached. -/
def apply (source : Source) (p : Parser α) (offset : Nat) : Except Fault (α × Nat) :=
  (source.applyWithin Parser.nestingLimit p (Cursor.place source.text offset)).map
    fun (value, next) => (value, next.offset)

end Source

end Scriptlet
