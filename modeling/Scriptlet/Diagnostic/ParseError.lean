import Scriptlet.Diagnostic.Basic
import Scriptlet.Text.Quoted

namespace Scriptlet

/-- A text that does not parse: where, and which constructs could have stood
there instead. -/
structure ParseError where
  offset : Nat
  expected : List String
  filename : String
  span : Span
  message : String
  notes : List String
  deriving DecidableEq

namespace ParseError

/-- The code that all parse errors are reported under. -/
def code : String := "E100"

/-- Labels as a phrase: the last one is joined by "or", the others by commas. -/
def describe : List String → String
  | [] => "nothing"
  | [label] => label
  | labels@(_ :: _) =>
    ", ".intercalate labels.dropLast ++ " or " ++ labels.getLastD ""

/-- What stands at an offset of a text. -/
def found (text : List Char) (offset : Nat) : String :=
  match text[offset]? with
  | some c => Text.quoted (String.singleton c)
  | none => "end of input"

/-- A hint for a text whose very first character is whitespace. -/
def hints (text : List Char) (offset : Nat) : List String :=
  match offset, text with
  | 0, c :: _ =>
    if c = ' ' ∨ c = '\t' ∨ c = '\n' then
      ["leading whitespace is not skipped before the first token"]
    else []
  | _, _ => []

/-- The error at an offset of a text, with a message of its own or the one that
names the labels expected. -/
def place (offset : Nat) (expected : List String) (text : List Char) (filename : String)
    (message : Option String) : ParseError where
  offset := offset
  expected := expected
  filename := filename
  span := Span.of filename text offset none
  message := message.getD ("expected " ++ describe expected ++ ", found " ++ found text offset)
  notes := hints text offset

/-- The diagnostic that reports the error. -/
def diagnostic (error : ParseError) : Diagnostic where
  code := code
  message := error.message
  pointers := [⟨error.span, ""⟩]
  notes := error.notes

/-- The error in one line. -/
def summary (error : ParseError) : String :=
  Diagnostic.summary [error.diagnostic]

end ParseError

end Scriptlet
