import Scriptlet.Grammar.Literal

namespace Scriptlet.Grammar

open Scriptlet.Parser

/-- A name. Reserved words are not excluded here. -/
def identifier : Parser String :=
  label "identifier" <| lexeme <|
    (fun (first, rest) => String.ofList (first :: rest)) <$> pair nameStart (many namePart)

def varIdentifier : Parser Expr :=
  Expr.var <$> identifier

/-- The word of one type, as a whole name. -/
def typeWord (type : TypeName) : Parser TypeName :=
  keyword type.word *> Parser.pure type

def typeName : Parser TypeName :=
  label "type name" <|
    choice (typeWord .int)
      ([.float, .bool, .string, .point, .vector, .matrix].map typeWord)

/-- The characters of one operator, whatever follows them. -/
def operatorSymbol (op : Operator) : Parser Operator :=
  string op.symbol *> Parser.pure op

/-- The operators after the first in the order in which they are tried: each
one comes before those that its characters begin with. -/
def laterOperators : List Operator :=
  [.equals, .notEquals, .greaterThanEq, .lessThanEq, .and, .or, .add, .subtract, .multiply,
   .divide, .greaterThan, .lessThan, .bitwiseAnd, .bitwiseOr, .bitwiseXor]

/-- All operators in the order in which they are tried. -/
def operatorOrder : List Operator :=
  .intDivide :: laterOperators

def operator : Parser Operator :=
  label "operator" <| lexeme <|
    choice (operatorSymbol .intDivide) (laterOperators.map operatorSymbol)

def openParen : Parser Char := symbol '('

def closeParen : Parser Char := symbol ')'

/-- A group in parentheses, given the parser for what is inside. -/
def group (inner : Parser Expr) : Parser Expr :=
  Expr.parens <$> between openParen closeParen inner

/-- An operand, given the parser for what is inside parentheses. Literals come
first, so that `true` and `false` are no names. -/
def operand (inner : Parser Expr) : Parser Expr :=
  choice literal [group inner, varIdentifier]

/-- Operands with operators between them, combined from the left without any
precedence. -/
def expression : Parser Expr :=
  recursive "expression" fun inner => chainLeft (operand inner) (Expr.operation <$> operator)

def parens : Parser Expr := group expression

def term : Parser Expr := operand expression

end Scriptlet.Grammar
