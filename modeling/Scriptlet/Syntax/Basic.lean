import Scriptlet.Number.Binary64

namespace Scriptlet

/-- Constants written in the source. Signs and exponents are not part of them. -/
inductive Literal where
  | int (value : Nat)
  | float (value : Number.Binary64)
  | string (value : String)
  | bool (value : Bool)
  deriving DecidableEq

/-- The types that an annotation may name. The last three have no literals. -/
inductive TypeName where
  | int
  | float
  | bool
  | string
  | point
  | vector
  | matrix
  deriving DecidableEq

inductive Operator where
  | add
  | subtract
  | multiply
  | divide
  | intDivide
  | greaterThan
  | lessThan
  | equals
  | notEquals
  | greaterThanEq
  | lessThanEq
  | and
  | or
  | bitwiseAnd
  | bitwiseOr
  | bitwiseXor
  deriving DecidableEq

/-- Expressions. Parentheses stay in the tree, and the operators have no
precedence: a chain is combined from the left. -/
inductive Expr where
  | literal (value : Literal)
  | var (name : String)
  | parens (inner : Expr)
  | operation (op : Operator) (left right : Expr)
  deriving DecidableEq

/-- A declared name with its optional type and optional initial value. -/
structure Variable where
  name : String
  typeName : Option TypeName
  initializer : Option Expr
  deriving DecidableEq

inductive Stmt where
  | declaration (declared : Variable)
  | expression (expr : Expr)
  deriving DecidableEq

/-- The statements of a source in order, and the name of the source. -/
structure Program where
  statements : List Stmt
  filename : String
  deriving DecidableEq

/-- Any tree that a production may yield. -/
inductive Node where
  | program (program : Program)
  | stmt (stmt : Stmt)
  | declared (declared : Variable)
  | expr (expr : Expr)
  | literal (literal : Literal)
  deriving DecidableEq

namespace TypeName

/-- The word by which the source names the type. -/
def word : TypeName → String
  | int => "int"
  | float => "float"
  | bool => "bool"
  | string => "string"
  | point => "point"
  | vector => "vector"
  | matrix => "matrix"

/-- The name under which trees show the type. -/
def label : TypeName → String
  | int => "INT"
  | float => "FLOAT"
  | bool => "BOOL"
  | string => "STRING"
  | point => "POINT"
  | vector => "VECTOR"
  | matrix => "MATRIX"

end TypeName

namespace Operator

/-- The characters by which the source writes the operator. -/
def symbol : Operator → String
  | add => "+"
  | subtract => "-"
  | multiply => "*"
  | divide => "/"
  | intDivide => "//"
  | greaterThan => ">"
  | lessThan => "<"
  | equals => "=="
  | notEquals => "!="
  | greaterThanEq => ">="
  | lessThanEq => "<="
  | and => "&&"
  | or => "||"
  | bitwiseAnd => "&"
  | bitwiseOr => "|"
  | bitwiseXor => "^"

/-- The name under which trees show the operator. -/
def label : Operator → String
  | add => "ADD"
  | subtract => "SUBTRACT"
  | multiply => "MULTIPLY"
  | divide => "DIVIDE"
  | intDivide => "INT_DIVIDE"
  | greaterThan => "GREATER_THAN"
  | lessThan => "LESS_THAN"
  | equals => "EQUALS"
  | notEquals => "NOT_EQUALS"
  | greaterThanEq => "GREATER_THAN_EQ"
  | lessThanEq => "LESS_THAN_EQ"
  | and => "AND"
  | or => "OR"
  | bitwiseAnd => "BITWISE_AND"
  | bitwiseOr => "BITWISE_OR"
  | bitwiseXor => "BITWISE_XOR"

end Operator

end Scriptlet
