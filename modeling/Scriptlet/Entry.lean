import Scriptlet.Grammar.Statement
import Scriptlet.Source

namespace Scriptlet

/-- What a whole source may be read as. -/
inductive Entry where
  | program
  | statement
  | expression
  | declaration
  deriving DecidableEq

namespace Entry

def all : List Entry := [program, statement, expression, declaration]

def name : Entry → String
  | program => "program"
  | statement => "statement"
  | expression => "expression"
  | declaration => "declaration"

def ofName? (name : String) : Option Entry :=
  all.find? fun entry => entry.name = name

/-- The complaint about a name that is no entry. -/
def unknown (name : String) : String :=
  "unknown entry point " ++ Text.quoted name ++ ", expected one of (" ++
    ", ".intercalate (all.map fun entry => Text.quoted entry.name) ++ ")"

end Entry

namespace Source

/-- Statements from the cursor to the end of the source, read by a parser of single
ones. What the other parser finds behind an expression belongs to the statement.
Every statement takes at least one character, so the rounds, one more than the
characters left, suffice. -/
def statementsBy (statement : Parser Stmt) (separator : Parser (Option Char)) (limit : Nat)
    (source : Source) : Nat → Cursor → List Stmt → Except Fault (List Stmt)
  | 0, _, _ => .error (.halted .endless)
  | rounds + 1, cursor, found =>
    if cursor.rest.isEmpty then .ok found.reverse
    else
      match source.applyWithin limit statement cursor with
      | .error fault => .error fault
      | .ok (.declaration declared, next) =>
        statementsBy statement separator limit source rounds next (.declaration declared :: found)
      | .ok (.expression expr, next) =>
        match source.applyWithin limit separator next with
        | .error fault => .error fault
        | .ok (_, next) =>
          statementsBy statement separator limit source rounds next (.expression expr :: found)

/-- Statements of the grammar from the cursor to the end of the source. -/
def statements (limit : Nat) (source : Source) :
    Nat → Cursor → List Stmt → Except Fault (List Stmt) :=
  statementsBy Grammar.statement Grammar.statementSeparator limit source

/-- The place after the whitespace that a source begins with. -/
def firstToken (limit : Nat) (source : Source) : Except Fault Cursor :=
  (source.applyWithin limit Grammar.whitespace (Cursor.place source.text 0)).map Prod.snd

/-- The whole source as a list of statements. -/
def programWithin (limit : Nat) (source : Source) : Except Fault Program := do
  let start ← source.firstToken limit
  let found ← source.statements limit (start.rest.length + 1) start []
  return ⟨found, source.filename⟩

/-- The whole source, but for the whitespace at its start, as one production. -/
def wholeWithin {α : Type} (limit : Nat) (source : Source) (p : Parser α) : Except Fault α := do
  let start ← source.firstToken limit
  let (value, _) ← source.applyWithin limit (p <* Parser.endOfInput) start
  return value

/-- Reads the whole source, with a limit on the nesting. -/
def parseWithin (limit : Nat) (source : Source) : Entry → Except Fault Node
  | .program => (source.programWithin limit).map .program
  | .statement => (source.wholeWithin limit Grammar.statement).map .stmt
  | .expression => (source.wholeWithin limit Grammar.expression).map .expr
  | .declaration => (source.wholeWithin limit Grammar.declaration).map .declared

/-- Reads the whole source. -/
def parse (source : Source) (entry : Entry) : Except Fault Node :=
  source.parseWithin Parser.nestingLimit entry

end Source

end Scriptlet
