import Scriptlet.Syntax.Dump

namespace Scriptlet

/-- A line of a dump without its blanks, and the level that the blanks show. -/
structure Row where
  level : Nat
  text : String
  deriving DecidableEq

/-- Twice as many blanks as the level says. -/
def blanks (level : Nat) : String := String.ofList (List.replicate (2 * level) ' ')

/-- The line of a row. -/
def Row.line (row : Row) : String := blanks row.level ++ row.text

namespace Literal

/-- The name of the class of a constant. -/
def className : Literal → String
  | int _ => "Int"
  | float _ => "Float"
  | string _ => "String"
  | bool _ => "Bool"

/-- How a constant is shown. -/
def shown : Literal → String
  | int n => Number.integerText n
  | float x => x.text
  | string s => Text.quoted s
  | bool b => if b then "True" else "False"

/-- The rows of a constant. -/
def rows (depth : Nat) (l : Literal) : List Row :=
  [⟨depth, l.className⟩, ⟨depth + 1, "value: " ++ l.shown⟩]

end Literal

/-- The rows of an expression, by recursion on it. -/
def Expr.rows (depth : Nat) : Expr → List Row
  | .literal l => ⟨depth, "LiteralExpr"⟩ :: ⟨depth + 1, "value:"⟩ :: l.rows (depth + 2)
  | .var name => [⟨depth, "VarIdentifier"⟩, ⟨depth + 1, "name: " ++ Text.quoted name⟩]
  | .parens inner =>
    ⟨depth, "Parentheses"⟩ :: ⟨depth + 1, "inner:"⟩ :: inner.rows (depth + 2)
  | .operation op left right =>
    ⟨depth, "Operation"⟩ :: ⟨depth + 1, "op: " ++ op.label⟩ ::
      ⟨depth + 1, "left:"⟩ :: left.rows (depth + 2) ++
      ⟨depth + 1, "right:"⟩ :: right.rows (depth + 2)

namespace Variable

/-- The row of the type, if there is one. -/
def typeRows (depth : Nat) (type : Option TypeName) : List Row :=
  type.toList.map fun t => ⟨depth + 1, "type_name: " ++ t.label⟩

/-- The rows of the initial value, if there is one. -/
def initializerRows (depth : Nat) (initializer : Option Expr) : List Row :=
  initializer.toList.flatMap fun e => ⟨depth + 1, "initializer:"⟩ :: e.rows (depth + 2)

/-- The rows of a declared variable. -/
def rows (depth : Nat) (v : Variable) : List Row :=
  ⟨depth, "Variable"⟩ :: ⟨depth + 1, "name: " ++ Text.quoted v.name⟩ ::
    typeRows depth v.typeName ++ initializerRows depth v.initializer

end Variable

/-- The rows of a statement. -/
def Stmt.rows (depth : Nat) : Stmt → List Row
  | .declaration v =>
    ⟨depth, "DeclarationStmt"⟩ :: ⟨depth + 1, "declaration:"⟩ :: v.rows (depth + 2)
  | .expression e =>
    ⟨depth, "ExpressionStmt"⟩ :: ⟨depth + 1, "expression:"⟩ :: e.rows (depth + 2)

/-- The rows of a program; its statements come one after the other. -/
def Program.rows (depth : Nat) (p : Program) : List Row :=
  ⟨depth, "Program"⟩ ::
    if p.statements = [] then [⟨depth + 1, "statements: []"⟩]
    else ⟨depth + 1, "statements:"⟩ :: p.statements.flatMap (Stmt.rows (depth + 2))

/-- The rows of a tree, the root at the given depth. -/
def Node.rows (depth : Nat) : Node → List Row
  | .program p => p.rows depth
  | .stmt s => s.rows depth
  | .declared v => v.rows depth
  | .expr e => e.rows depth
  | .literal l => l.rows depth

namespace Node

/-- The name of the class of a node. -/
def className : Node → String
  | program _ => "Program"
  | stmt (.declaration _) => "DeclarationStmt"
  | stmt (.expression _) => "ExpressionStmt"
  | declared _ => "Variable"
  | expr (.literal _) => "LiteralExpr"
  | expr (.var _) => "VarIdentifier"
  | expr (.parens _) => "Parentheses"
  | expr (.operation _ _ _) => "Operation"
  | literal l => l.className

/-- What a node is made of, in the order in which the class declares it. The name of
the source of a program is left out. -/
def parts : Node → List (String × Field)
  | program p => [("statements", .children (p.statements.map stmt))]
  | stmt (.declaration v) => [("declaration", .child (declared v))]
  | stmt (.expression e) => [("expression", .child (expr e))]
  | declared ⟨name, type, initializer⟩ =>
    [("name", .shown (Text.quoted name)),
      ("type_name", type.elim .absent fun t => .shown t.label),
      ("initializer", initializer.elim .absent fun e => .child (expr e))]
  | expr (.literal l) => [("value", .child (literal l))]
  | expr (.var name) => [("name", .shown (Text.quoted name))]
  | expr (.parens inner) => [("inner", .child (expr inner))]
  | expr (.operation op left right) =>
    [("op", .shown op.label), ("left", .child (expr left)), ("right", .child (expr right))]
  | literal l => [("value", .shown l.shown)]

theorem kind_eq_className (node : Node) : node.kind = node.className := by
  rcases node with p | s | v | e | l
  · rfl
  · cases s <;> rfl
  · rfl
  · cases e <;> rfl
  · cases l <;> rfl

theorem fields_eq_parts (node : Node) : node.fields = node.parts := by
  rcases node with p | s | v | e | l
  · rfl
  · cases s <;> rfl
  · obtain ⟨name, type, initializer⟩ := v
    cases type <;> cases initializer <;> rfl
  · cases e <;> rfl
  · cases l <;> rfl

end Node

namespace Dump

theorem indent_eq_blanks (depth : Nat) : indent depth = blanks depth := rfl

/-- The rows of one field: none if it is absent, one if it fits into a line,
otherwise one that names it and those of what it holds. -/
def fieldRows (depth : Nat) (name : String) : Field → List Row
  | .absent => []
  | .shown text => [⟨depth + 1, name ++ ": " ++ text⟩]
  | .child node => ⟨depth + 1, name ++ ":"⟩ :: node.rows (depth + 2)
  | .children [] => [⟨depth + 1, name ++ ": []"⟩]
  | .children nodes => ⟨depth + 1, name ++ ":"⟩ :: nodes.flatMap (Node.rows (depth + 2))

end Dump

/-- A tree is shown as its class and then part by part. -/
theorem Node.rows_eq (depth : Nat) (node : Node) :
    node.rows depth =
      ⟨depth, node.className⟩ :: node.parts.flatMap fun (name, field) => Dump.fieldRows depth name field := by
  rcases node with p | s | v | e | l
  · cases hStatements : p.statements with
    | nil => simp [rows, Program.rows, className, parts, Dump.fieldRows, hStatements]
    | cons first rest =>
        simp [rows, Program.rows, className, parts, Dump.fieldRows, hStatements, List.flatMap_map]
  · cases s <;> simp [rows, Stmt.rows, className, parts, Dump.fieldRows]
  · rcases v with ⟨name, type, initializer⟩
    cases type <;> cases initializer <;>
      simp [rows, Variable.rows, Variable.typeRows, Variable.initializerRows, className, parts,
        Dump.fieldRows]
  · cases e <;> simp [rows, Expr.rows, className, parts, Dump.fieldRows]
  · rfl

/-- The lines that show a tree whose root is at the given depth. -/
def Node.lines (depth : Nat) (node : Node) : List String := (node.rows depth).map Row.line

namespace Dump

variable {lines : Nat → Node → List String}

/-- The lines of one field, if those of a node at a depth are given: none if it
is absent, one if it fits into a line, otherwise one that names it and those of
what it holds, two levels further in. -/
def fieldLines (lines : Nat → Node → List String) (depth : Nat) (name : String) : Field → List String
  | .absent => []
  | .shown text => [blanks (depth + 1) ++ name ++ ": " ++ text]
  | .child node => (blanks (depth + 1) ++ name ++ ":") :: lines (depth + 2) node
  | .children [] => [blanks (depth + 1) ++ name ++ ": []"]
  | .children nodes => (blanks (depth + 1) ++ name ++ ":") :: nodes.flatMap (lines (depth + 2))

/-- The recursion on a tree: a node gives the line of its class, and then its parts
give theirs in order. -/
def IsRecursive (lines : Nat → Node → List String) : Prop :=
  ∀ depth node, lines depth node =
    (blanks depth ++ node.className) ::
      node.parts.flatMap fun (name, field) => fieldLines lines depth name field

theorem fieldLines_lines (depth : Nat) (name : String) (field : Field) :
    fieldLines Node.lines depth name field = (fieldRows depth name field).map Row.line := by
  match field with
  | .absent => rfl
  | .shown text => simp [fieldLines, fieldRows, Row.line, String.append_assoc]
  | .child node => simp [fieldLines, fieldRows, Row.line, Node.lines, String.append_assoc]
  | .children [] => simp [fieldLines, fieldRows, Row.line, String.append_assoc]
  | .children (node :: nodes) =>
      have hNodes : (node :: nodes).flatMap (Node.lines (depth + 2)) =
          ((node :: nodes).flatMap (Node.rows (depth + 2))).map Row.line := by
        rw [List.map_flatMap]
        rfl
      simp only [fieldLines, fieldRows, Row.line, hNodes, List.map_cons, String.append_assoc]

theorem isRecursive_lines : IsRecursive Node.lines := by
  intro depth node
  have hParts : (node.parts.flatMap fun (name, field) => fieldLines Node.lines depth name field) =
      (node.parts.flatMap fun (name, field) => fieldRows depth name field).map Row.line := by
    simp only [fieldLines_lines, List.map_flatMap]
  rw [hParts, Node.lines, Node.rows_eq]
  rfl

/-- The lines that an item of the work stands for. -/
def itemLines (lines : Nat → Node → List String) : Item → List String
  | .line text => [text]
  | .node depth node => lines depth node

theorem itemLines_field (lines : Nat → Node → List String) (depth : Nat) (name : String) (field : Field) :
    (fieldItems depth name field).flatMap (itemLines lines) = fieldLines lines depth name field := by
  match field with
  | .absent => rfl
  | .shown text => rfl
  | .child node => simp [fieldItems, fieldLines, itemLines, indent_eq_blanks]
  | .children [] => rfl
  | .children (node :: nodes) =>
      simp [fieldItems, fieldLines, itemLines, List.flatMap_map, indent_eq_blanks]

/-- Opening a node on the list of work leaves the lines that the work stands for. -/
theorem IsRecursive.opened (h : IsRecursive lines) (depth : Nat) (node : Node) :
    lines depth node =
      (indent depth ++ node.kind) :: (nodeItems depth node).flatMap (itemLines lines) := by
  simp only [nodeItems, List.flatMap_assoc, itemLines_field, indent_eq_blanks, Node.kind_eq_className,
    Node.fields_eq_parts]
  exact h depth node

/-- The work is done in order, whatever has been collected before. -/
theorem IsRecursive.emit_eq (h : IsRecursive lines) (items : List Item) (done : List String) :
    emit items done = done.reverse ++ items.flatMap (itemLines lines) := by
  -- What is on the list stands for its lines in order, before and after each step.
  fun_induction emit items done with
  | case1 done => simp
  | case2 text rest done ih => simp [ih, itemLines]
  | case3 depth node rest done ih => simp [ih, itemLines, h.opened depth node]

/-- What obeys the recursion is what the list of work gives, node by node. -/
theorem IsRecursive.eq_emit (h : IsRecursive lines) (depth : Nat) (node : Node) :
    lines depth node = emit [.node depth node] [] := by
  simp [h.emit_eq, itemLines]

end Dump

/-- The explicit list of work shows a tree as the recursion on it does. -/
theorem Node.dump_eq_rows (node : Node) : node.dump = (node.rows 0).map Row.line :=
  (Dump.isRecursive_lines.eq_emit 0 node).symm

/-- The explicit list of work and the recursion on the tree show the same lines.
The equation of the recursion has one solution, which is made of the rows. -/
theorem dump_eq_recursion :
    (∀ lines, Dump.IsRecursive lines ↔ lines = Node.lines) ∧
      ∀ node : Node, node.dump = Node.lines 0 node := by
  refine ⟨fun lines => ⟨fun h => ?_, ?_⟩, Node.dump_eq_rows⟩
  · funext depth node
    rw [h.eq_emit, Dump.isRecursive_lines.eq_emit]
  · rintro rfl
    exact Dump.isRecursive_lines

/-- Two statements, with an operation inside of parentheses inside of a declaration,
and a program without statements. -/
theorem dump_eq_recursion_nested :
    let sum : Expr := .operation .add (.var "x") (.literal (.string "a b"))
    let first : Stmt := .declaration ⟨"y", some .int, some (.parens sum)⟩
    let second : Stmt := .declaration ⟨"z", none, none⟩
    (Node.program ⟨[first, second], "f"⟩).dump =
      ["Program",
        "  statements:",
        "    DeclarationStmt",
        "      declaration:",
        "        Variable",
        "          name: 'y'",
        "          type_name: INT",
        "          initializer:",
        "            Parentheses",
        "              inner:",
        "                Operation",
        "                  op: ADD",
        "                  left:",
        "                    VarIdentifier",
        "                      name: 'x'",
        "                  right:",
        "                    LiteralExpr",
        "                      value:",
        "                        String",
        "                          value: 'a b'",
        "    DeclarationStmt",
        "      declaration:",
        "        Variable",
        "          name: 'z'"] ∧
      (Node.program ⟨[], "f"⟩).dump = ["Program", "  statements: []"] := by
  intro sum first second
  rw [dump_eq_recursion.2, dump_eq_recursion.2]
  exact ⟨by decide +kernel, by decide +kernel⟩

end Scriptlet
