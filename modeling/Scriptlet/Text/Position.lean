namespace Scriptlet.Text

/-- An offset moved to the nearest one that the text has. -/
def clampOffset (text : List Char) (offset : Int) : Nat :=
  min offset.toNat text.length

/-- The line and the column of an offset, both counted from one. Only line
feeds begin a new line here. -/
def lineCol (text : List Char) (offset : Int) : Nat × Nat :=
  let before := text.take (clampOffset text offset)
  let sinceBreak := before.reverse.takeWhile (· != '\n')
  (before.count '\n' + 1, sinceBreak.length + 1)

end Scriptlet.Text

namespace Scriptlet

/-- A range of a named source, by the line and column of its first and of its
last character. -/
structure Span where
  file : String
  startLine : Int
  startCol : Int
  endLine : Int
  endCol : Int
  deriving DecidableEq

namespace Span

/-- The range from `start` up to and without `stop`. Without a stop, or with
one that is not beyond the start, it is the single place at the start. -/
def of (file : String) (text : List Char) (start : Int) (stop : Option Int) : Span :=
  let (startLine, startCol) := Text.lineCol text start
  let (endLine, endCol) :=
    match stop with
    | none => (startLine, startCol)
    | some stop => if stop ≤ start then (startLine, startCol) else Text.lineCol text (stop - 1)
  ⟨file, startLine, startCol, endLine, endCol⟩

/-- Where the range starts, in the usual form. -/
def text (span : Span) : String :=
  span.file ++ ":" ++ toString span.startLine ++ ":" ++ toString span.startCol

end Span

end Scriptlet
