namespace Scriptlet.Text

/-- The characters that end a line of a displayed source. A carriage return
directly before a line feed ends the same line as the line feed. -/
def isLineBreak (c : Char) : Bool :=
  c = '\n' || c = '\r' || c.toNat = 0x0b || c.toNat = 0x0c || c.toNat = 0x1c || c.toNat = 0x1d
    || c.toNat = 0x1e || c.toNat = 0x85 || c.toNat = 0x2028 || c.toNat = 0x2029

/-- Cuts a text after every line break, given the line begun so far in reverse.
A last line without break counts only if it is not empty. -/
def cutLines : List Char → List Char → List (List Char)
  | line, [] => if line.isEmpty then [] else [line.reverse]
  | line, '\r' :: '\n' :: rest => line.reverse :: cutLines [] rest
  | line, c :: rest =>
    if isLineBreak c then line.reverse :: cutLines [] rest else cutLines (c :: line) rest

/-- The lines of a text without their breaks. -/
def splitLines (text : List Char) : List String :=
  (cutLines [] text).map String.ofList

/-- Writes every line end as a line feed, onto the text done so far in reverse. -/
def unifyInto : List Char → List Char → List Char
  | done, [] => done.reverse
  | done, '\r' :: '\n' :: rest => unifyInto ('\n' :: done) rest
  | done, c :: rest => unifyInto ((if c = '\r' then '\n' else c) :: done) rest

/-- A text as it is read from a file: carriage returns, alone or before a line
feed, become line feeds. -/
def unifyLineEnds (text : List Char) : List Char :=
  unifyInto [] text

end Scriptlet.Text
