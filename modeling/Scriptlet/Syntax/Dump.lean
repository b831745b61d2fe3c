import Scriptlet.Number.Digits
import Scriptlet.Number.Shortest
import Scriptlet.Syntax.Basic
import Scriptlet.Text.Quoted

namespace Scriptlet

/-- What a tree node holds under one field name. An absent part is not shown. -/
inductive Field where
  | absent
  | shown (text : String)
  | child (node : Node)
  | children (nodes : List Node)

namespace Node

/-- The name of the kind of node, as the dump writes it. -/
def kind : Node → String
  | program _ => "Program"
  | stmt (.declaration _) => "DeclarationStmt"
  | stmt (.expression _) => "ExpressionStmt"
  | declared _ => "Variable"
  | expr (.literal _) => "LiteralExpr"
  | expr (.var _) => "VarIdentifier"
  | expr (.parens _) => "Parentheses"
  | expr (.operation _ _ _) => "Operation"
  | literal (.int _) => "Int"
  | literal (.float _) => "Float"
  | literal (.string _) => "String"
  | literal (.bool _) => "Bool"

/-- The fields of a node in the order in which the dump shows them. The name of
a program's source is not among them. -/
def fields : Node → List (String × Field)
  | program p => [("statements", .children (p.statements.map stmt))]
  | stmt (.declaration v) => [("declaration", .child (declared v))]
  | stmt (.expression e) => [("expression", .child (expr e))]
  | declared v =>
    [("name", .shown (Text.quoted v.name)),
     ("type_name", (v.typeName.map fun t => Field.shown t.label).getD .absent),
     ("initializer", (v.initializer.map fun e => Field.child (expr e)).getD .absent)]
  | expr (.literal l) => [("value", .child (literal l))]
  | expr (.var name) => [("name", .shown (Text.quoted name))]
  | expr (.parens inner) => [("inner", .child (expr inner))]
  | expr (.operation op left right) =>
    [("op", .shown op.label), ("left", .child (expr left)), ("right", .child (expr right))]
  | literal (.int n) => [("value", .shown (Number.integerText n))]
  | literal (.float x) => [("value", .shown x.text)]
  | literal (.string s) => [("value", .shown (Text.quoted s))]
  | literal (.bool b) => [("value", .shown (if b then "True" else "False"))]

end Node

namespace Dump

/-- Work that is left to do: a finished line, or a node still to be opened. -/
inductive Item where
  | line (text : String)
  | node (depth : Nat) (node : Node)

/-- Two blanks for each level. -/
def indent (depth : Nat) : String :=
  String.ofList (List.replicate (2 * depth) ' ')

/-- The work that one field of a node at the given depth gives. -/
def fieldItems (depth : Nat) (name : String) : Field → List Item
  | .absent => []
  | .shown text => [.line (indent (depth + 1) ++ name ++ ": " ++ text)]
  | .child node => [.line (indent (depth + 1) ++ name ++ ":"), .node (depth + 2) node]
  | .children [] => [.line (indent (depth + 1) ++ name ++ ": []")]
  | .children nodes =>
    .line (indent (depth + 1) ++ name ++ ":") :: nodes.map (Item.node (depth + 2))

/-- The work that a node gives after its own line. -/
def nodeItems (depth : Nat) (node : Node) : List Item :=
  node.fields.flatMap fun (name, field) => fieldItems depth name field

/-- A bound on the items that the tree of an expression gives, itself included. -/
def exprWeight : Expr → Nat
  | .literal _ => 5
  | .var _ => 3
  | .parens inner => exprWeight inner + 3
  | .operation _ left right => exprWeight left + exprWeight right + 5

/-- A bound on the items that a declared variable gives, itself included. -/
def variableWeight (v : Variable) : Nat :=
  (v.initializer.map exprWeight).getD 0 + 5

/-- A bound on the items that a statement gives, itself included. -/
def stmtWeight : Stmt → Nat
  | .declaration v => variableWeight v + 3
  | .expression e => exprWeight e + 3

/-- A bound on the items that a block of statements gives. -/
def blockWeight : List Stmt → Nat
  | [] => 0
  | s :: rest => stmtWeight s + blockWeight rest

/-- A bound on the items that a node gives, itself included. -/
def nodeWeight : Node → Nat
  | .program p => blockWeight p.statements + 3
  | .stmt s => stmtWeight s
  | .declared v => variableWeight v
  | .expr e => exprWeight e
  | .literal _ => 2

def itemWeight : Item → Nat
  | .line _ => 1
  | .node _ node => nodeWeight node

/-- The weight of all the work that is left. -/
def workWeight : List Item → Nat
  | [] => 0
  | item :: rest => itemWeight item + workWeight rest

@[simp] theorem workWeight_append (front back : List Item) :
    workWeight (front ++ back) = workWeight front + workWeight back := by
  induction front with
  | nil => simp [workWeight]
  | cons item front ih => simp [workWeight, ih, Nat.add_assoc]

theorem workWeight_block (depth : Nat) (stmts : List Stmt) :
    workWeight ((stmts.map Node.stmt).map (Item.node depth)) = blockWeight stmts := by
  induction stmts with
  | nil => rfl
  | cons s rest ih =>
      simp only [List.map_cons, workWeight, blockWeight, itemWeight, nodeWeight, ih]

/-- Opening a node leaves less work than the node itself stood for. -/
theorem nodeItems_weight_lt (depth : Nat) (node : Node) :
    workWeight (nodeItems depth node) < nodeWeight node := by
  rcases node with p | s | v | e | l
  · cases h : p.statements with
    | nil => simp [nodeItems, Node.fields, fieldItems, nodeWeight, workWeight, itemWeight, h]
    | cons first rest =>
      have hBlock := workWeight_block (depth + 2) (first :: rest)
      simp only [List.map_cons] at hBlock
      simp [nodeItems, Node.fields, fieldItems, nodeWeight, workWeight, itemWeight, h] at hBlock ⊢
      omega
  · cases s <;>
      simp [nodeItems, Node.fields, fieldItems, nodeWeight, workWeight, itemWeight, stmtWeight] <;>
      omega
  · rcases v with ⟨name, typeName, initializer⟩
    cases typeName <;> cases initializer <;>
      simp [nodeItems, Node.fields, fieldItems, nodeWeight, workWeight, itemWeight,
        variableWeight] <;>
      omega
  · cases e <;>
      simp [nodeItems, Node.fields, fieldItems, nodeWeight, workWeight, itemWeight, exprWeight] <;>
      omega
  · cases l <;> simp [nodeItems, Node.fields, fieldItems, nodeWeight, workWeight, itemWeight]

/-- Does the work on the list from its front, collecting lines in reverse. The
explicit list keeps the depth of a tree off the call stack. -/
def emit : List Item → List String → List String
  | [], lines => lines.reverse
  | .line text :: rest, lines => emit rest (text :: lines)
  | .node depth node :: rest, lines =>
    emit (nodeItems depth node ++ rest) ((indent depth ++ node.kind) :: lines)
termination_by items => workWeight items
decreasing_by
  · simp [workWeight, itemWeight]
  · have hLess := nodeItems_weight_lt depth node
    simp only [workWeight_append, workWeight, itemWeight]
    omega

end Dump

/-- The lines that show a tree: one for each node and each shown field. -/
def Node.dump (node : Node) : List String :=
  Dump.emit [.node 0 node] []

end Scriptlet
