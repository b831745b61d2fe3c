import Scriptlet.Grammar.Expression

namespace Scriptlet.Grammar

open Scriptlet.Parser

/-- A colon and a type, or nothing. -/
def typeAnnotation : Parser (Option TypeName) :=
  optional (symbol ':' *> typeName)

/-- An equals sign, an expression and a semicolon, or the semicolon alone. -/
def initializer : Parser (Option Expr) :=
  some <$> (symbol '=' *> expression <* symbol ';') <|> symbol ';' *> Parser.pure none

def declaration : Parser Variable :=
  (fun (name, typeName, initializer) => ⟨name, typeName, initializer⟩) <$>
    triple (keyword "let" *> identifier) typeAnnotation initializer

/-- A declaration, or else an expression from the same place. -/
def statement : Parser Stmt :=
  attempt (Stmt.declaration <$> declaration) <|> Stmt.expression <$> expression

/-- The semicolon that may follow an expression in a program. -/
def statementSeparator : Parser (Option Char) :=
  optional (symbol ';')

end Scriptlet.Grammar
