import Scriptlet.Grammar.Token
import Scriptlet.Number.Digits
import Scriptlet.Syntax.Basic

namespace Scriptlet.Grammar

open Scriptlet.Parser

/-- A run of digits of any length. -/
def integer : Parser Literal :=
  (fun digits => Literal.int (Number.decimalValue digits)) <$> lexeme (many1 digit)

/-- The number nearest to a decimal text with the given digits before and after
the point. -/
def pointed (whole fraction : List Char) : Number.Binary64 :=
  Number.Binary64.ofDecimal (Number.decimalValue (whole ++ fraction)) (-fraction.length)

/-- Digits, a point, and possibly further digits. -/
def floatLiteral : Parser Literal :=
  (fun (whole, _, fraction) => Literal.float (pointed whole fraction)) <$>
    lexeme (triple (many1 digit) (char '.') (many digit))

/-- A number with or without a point. The first alternative gives its digits
back when no point follows. -/
def number : Parser Expr :=
  label "number" (Expr.literal <$> (attempt floatLiteral <|> integer))

/-- Everything between two double quotes; there are no escapes. -/
def stringLiteral : Parser Expr :=
  label "string" <|
    (fun chars => Expr.literal (.string (String.ofList chars))) <$>
      (char '"' *> many (noneOf "\"" "string character") <* lexeme (char '"'))

def boolean : Parser Expr :=
  label "boolean" <|
    (fun value => Expr.literal (.bool value)) <$>
      (keyword "true" *> Parser.pure true <|> keyword "false" *> Parser.pure false)

def literal : Parser Expr :=
  choice number [stringLiteral, boolean]

end Scriptlet.Grammar
