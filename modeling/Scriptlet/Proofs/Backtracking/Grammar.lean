import Scriptlet.Proofs.Driver

namespace Scriptlet

open Scriptlet.Parser

/-- A way to choose between alternatives. -/
structure Alternation where
  choose : {α : Type} → Parser α → List (Parser α) → Parser α

namespace Alternation

/-- A failure that is committed keeps later alternatives from being tried. -/
def committed : Alternation := ⟨choice⟩

/-- No alternative commits, so that the later ones are always tried. -/
def backtracking : Alternation :=
  ⟨fun first others => choice (attempt first) (others.map attempt)⟩

/-! The productions, for any way to choose. -/

variable (way : Alternation)

def optional {α : Type} (p : Parser α) : Parser (Option α) :=
  way.choose (p.map some) [Parser.pure none]

def nameStart : Parser Char := way.choose letter [char '_']

def namePart : Parser Char := way.choose way.nameStart [digit]

def keyword (word : String) : Parser String :=
  Grammar.lexeme <| label (Text.quoted word) <|
    attempt (string word <* notFollowedBy way.namePart "identifier character")

def number : Parser Expr :=
  label "number" (Expr.literal <$> way.choose (attempt Grammar.floatLiteral) [Grammar.integer])

def boolean : Parser Expr :=
  label "boolean" <|
    (fun value => Expr.literal (.bool value)) <$>
      way.choose (way.keyword "true" *> Parser.pure true) [way.keyword "false" *> Parser.pure false]

def literal : Parser Expr := way.choose way.number [Grammar.stringLiteral, way.boolean]

def identifier : Parser String :=
  label "identifier" <| Grammar.lexeme <|
    (fun (first, rest) => String.ofList (first :: rest)) <$> pair way.nameStart (many way.namePart)

def varIdentifier : Parser Expr := Expr.var <$> way.identifier

def typeWord (type : TypeName) : Parser TypeName := way.keyword type.word *> Parser.pure type

def typeName : Parser TypeName :=
  label "type name" <|
    way.choose (way.typeWord .int)
      ([.float, .bool, .string, .point, .vector, .matrix].map way.typeWord)

def operator : Parser Operator :=
  label "operator" <| Grammar.lexeme <|
    way.choose (Grammar.operatorSymbol .intDivide)
      (Grammar.laterOperators.map Grammar.operatorSymbol)

def operand (inner : Parser Expr) : Parser Expr :=
  way.choose way.literal [Grammar.group inner, way.varIdentifier]

/-- One level of expressions, given the parser for what is inside parentheses. -/
def chain (inner : Parser Expr) : Parser Expr :=
  chainLeft (way.operand inner) (Expr.operation <$> way.operator)

def expression : Parser Expr := recursive "expression" way.chain

def term : Parser Expr := way.operand way.expression

def typeAnnotation : Parser (Option TypeName) :=
  way.optional (Grammar.symbol ':' *> way.typeName)

def initializer : Parser (Option Expr) :=
  way.choose (some <$> (Grammar.symbol '=' *> way.expression <* Grammar.symbol ';'))
    [Grammar.symbol ';' *> Parser.pure none]

def declaration : Parser Variable :=
  (fun (name, typeName, initializer) => ⟨name, typeName, initializer⟩) <$>
    triple (way.keyword "let" *> way.identifier) way.typeAnnotation way.initializer

def statement : Parser Stmt :=
  way.choose (attempt (Stmt.declaration <$> way.declaration)) [Stmt.expression <$> way.expression]

def statementSeparator : Parser (Option Char) := way.optional (Grammar.symbol ';')

/-- A whole source as a list of statements. -/
def program (limit : Nat) (source : Source) : Except Fault Program := do
  let start ← source.firstToken limit
  let found ← Source.statementsBy way.statement way.statementSeparator limit source
    (start.rest.length + 1) start []
  return ⟨found, source.filename⟩

theorem program_of_first {limit : Nat} {source : Source} {start : Cursor}
    (h : source.firstToken limit = .ok start) :
    way.program limit source =
      (Source.statementsBy way.statement way.statementSeparator limit source
        (start.rest.length + 1) start []).map (⟨·, source.filename⟩) := by
  simp only [program, h, bind, Except.bind]
  cases Source.statementsBy way.statement way.statementSeparator limit source
    (start.rest.length + 1) start [] <;> rfl

/-! With commitment these are the productions of the grammar. -/

theorem committed_term : committed.term = Grammar.term := by
  rfl

theorem committed_expression : committed.expression = Grammar.expression := by
  rfl

theorem committed_declaration : committed.declaration = Grammar.declaration := by
  rfl

theorem committed_statement : committed.statement = Grammar.statement := by
  rfl

theorem committed_program (limit : Nat) (source : Source) :
    committed.program limit source = source.programWithin limit := by
  simp only [program, Source.programWithin, Source.statements]
  rfl

end Alternation

end Scriptlet
