import Scriptlet.Grammar.Statement
import Scriptlet.Value

namespace Scriptlet

/-- The productions of the grammar that can be applied by name. -/
inductive Production where
  | statement
  | expression
  | declaration
  | typeName
  | whitespace
  | integer
  | floatLiteral
  | number
  | stringLiteral
  | boolean
  | literal
  | identifier
  | varIdentifier
  | operator
  | parens
  | term
  | typeAnnotation
  | initializer
  | statementSeparator
  deriving DecidableEq

namespace Production

def all : List Production :=
  [statement, expression, declaration, typeName, whitespace, integer, floatLiteral, number,
   stringLiteral, boolean, literal, identifier, varIdentifier, operator, parens, term,
   typeAnnotation, initializer, statementSeparator]

def name : Production → String
  | statement => "statement"
  | expression => "expression"
  | declaration => "declaration"
  | typeName => "type_name"
  | whitespace => "whitespace"
  | integer => "integer"
  | floatLiteral => "float_literal"
  | number => "number"
  | stringLiteral => "string_literal"
  | boolean => "boolean"
  | literal => "literal"
  | identifier => "identifier"
  | varIdentifier => "var_identifier"
  | operator => "operator"
  | parens => "parens"
  | term => "term"
  | typeAnnotation => "type_annotation"
  | initializer => "initializer"
  | statementSeparator => "statement_separator"

def ofName? (name : String) : Option Production :=
  all.find? fun production => production.name = name

/-- An optional value as one that may be absent. -/
def orAbsent {α : Type} (wrap : α → Value) (value : Option α) : Value :=
  (value.map wrap).getD .absent

/-- The parser of a production. Whitespace yields nothing. -/
def parser : Production → Parser Value
  | statement => (fun s => .node (.stmt s)) <$> Grammar.statement
  | expression => (fun e => .node (.expr e)) <$> Grammar.expression
  | declaration => (fun v => .node (.declared v)) <$> Grammar.declaration
  | typeName => Value.typeName <$> Grammar.typeName
  | whitespace => (fun _ => .absent) <$> Grammar.whitespace
  | integer => (fun l => .node (.literal l)) <$> Grammar.integer
  | floatLiteral => (fun l => .node (.literal l)) <$> Grammar.floatLiteral
  | number => (fun e => .node (.expr e)) <$> Grammar.number
  | stringLiteral => (fun e => .node (.expr e)) <$> Grammar.stringLiteral
  | boolean => (fun e => .node (.expr e)) <$> Grammar.boolean
  | literal => (fun e => .node (.expr e)) <$> Grammar.literal
  | identifier => Value.text <$> Grammar.identifier
  | varIdentifier => (fun e => .node (.expr e)) <$> Grammar.varIdentifier
  | operator => Value.operator <$> Grammar.operator
  | parens => (fun e => .node (.expr e)) <$> Grammar.parens
  | term => (fun e => .node (.expr e)) <$> Grammar.term
  | typeAnnotation => orAbsent .typeName <$> Grammar.typeAnnotation
  | initializer => orAbsent (fun e => .node (.expr e)) <$> Grammar.initializer
  | statementSeparator =>
    orAbsent (fun c => .text (String.singleton c)) <$> Grammar.statementSeparator

end Production

end Scriptlet
