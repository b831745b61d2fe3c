import Scriptlet.Proofs.Grammar.Statement
import Scriptlet.Proofs.Number.Hexadecimal
import Scriptlet.Proofs.Number.Shortest
import Scriptlet.Proofs.Syntax.Dump
import Scriptlet.Proofs.Text.Quoted

namespace Scriptlet

variable {depth : Nat} {rest others : List Row}

theorem TypeName.label_injective : Function.Injective TypeName.label := by
  intro t u h
  cases t <;> cases u <;> first | rfl | simp [label] at h

theorem Operator.label_injective : Function.Injective Operator.label := by
  have hFind : ∀ op : Operator, Grammar.operatorOrder.find? (fun o => o.label = op.label) = some op := by
    intro op
    cases op <;> rfl
  intro op other h
  have hSame := hFind op
  rw [h, hFind] at hSame
  exact (Option.some.inj hSame).symm

/-- A float of the source is written in the way in which no other one is. -/
theorem Literal.WellFormed.canonical {x : Number.Binary64} (h : (Literal.float x).WellFormed) :
    x.Canonical := by
  obtain ⟨whole, fraction, _, _, rfl⟩ := h
  exact Number.Binary64.canonical_ofDecimal _ _

/-- The rows of a constant are not the beginning of those of another one. -/
theorem Literal.rows_cancel {l k : Literal} (hl : l.WellFormed) (hk : k.WellFormed)
    (h : l.rows depth ++ rest = k.rows depth ++ others) : l = k ∧ rest = others := by
  simp only [rows, List.cons_append, List.nil_append, List.cons.injEq, Row.mk.injEq, true_and,
    String.append_right_inj] at h
  obtain ⟨hKind, hShown, hRest⟩ := h
  refine ⟨?_, hRest⟩
  cases l <;> cases k <;> first | (simp [className] at hKind; done) | skip
  · exact congrArg Literal.int (Number.integerText_injective hShown)
  · exact congrArg Literal.float (Number.Binary64.eq_of_text_eq hl.canonical hk.canonical hShown)
  · exact congrArg Literal.string (Text.quoted_injective hShown)
  · rename_i b c
    cases b <;> cases c <;> first | rfl | simp [shown] at hShown

/-- The rows of an expression are not the beginning of those of another one. -/
theorem Expr.rows_cancel {e f : Expr} (he : e.WellFormed) (hf : f.WellFormed)
    (h : e.rows depth ++ rest = f.rows depth ++ others) : e = f ∧ rest = others := by
  induction e generalizing depth f rest others with
  | literal l =>
      cases f with
      | literal k =>
          simp only [rows, List.cons_append, List.cons.injEq, true_and] at h
          obtain ⟨rfl, hRest⟩ := Literal.rows_cancel he hf h
          exact ⟨rfl, hRest⟩
      | var | parens | operation => simp [rows] at h
  | var name =>
      cases f with
      | var other =>
          simp only [rows, List.cons_append, List.nil_append, List.cons.injEq, Row.mk.injEq, true_and,
            String.append_right_inj] at h
          exact ⟨congrArg Expr.var (Text.quoted_injective h.1), h.2⟩
      | literal | parens | operation => simp [rows] at h
  | parens inner ih =>
      cases f with
      | parens other =>
          simp only [rows, List.cons_append, List.cons.injEq, true_and] at h
          obtain ⟨rfl, hRest⟩ := ih (f := other) he hf h
          exact ⟨rfl, hRest⟩
      | literal | var | operation => simp [rows] at h
  | operation op left right ihLeft ihRight =>
      cases f with
      | operation other first second =>
          simp only [rows, List.cons_append, List.append_assoc, List.cons.injEq, Row.mk.injEq,
            true_and, String.append_right_inj] at h
          obtain ⟨hLabel, hOperands⟩ := h
          -- the left operand ends where the row for the right one begins
          obtain ⟨rfl, hRight⟩ := ihLeft he.1 hf.1 hOperands
          obtain ⟨rfl, hRest⟩ := ihRight he.2.1 hf.2.1 (List.cons.inj hRight).2
          rw [Operator.label_injective hLabel]
          exact ⟨rfl, hRest⟩
      | literal | var | parens => simp [rows] at h

/-- Rows that are behind a node of the given depth, and not inside of it. -/
def Outside (depth : Nat) (rows : List Row) : Prop := ∀ row ∈ rows.head?, row.level ≤ depth

theorem outside_nil : Outside depth [] := by simp [Outside]

theorem Outside.ne_field (h : Outside depth rest) (text : String) (rows : List Row) :
    rest ≠ ⟨depth + 1, text⟩ :: rows := by
  rintro rfl
  exact absurd (h _ rfl) (Nat.not_succ_le_self depth)

theorem Outside.mono {deeper : Nat} (h : Outside depth rest) (hDeeper : depth ≤ deeper) :
    Outside deeper rest :=
  fun row hRow => (h row hRow).trans hDeeper

namespace Variable

/-- The row of an absent type is not missed, since what follows does not begin
with one. -/
theorem typeRows_cancel {type other : Option TypeName} {first second : Option Expr}
    (hRest : Outside depth rest) (hOthers : Outside depth others)
    (h : typeRows depth type ++ (initializerRows depth first ++ rest) =
      typeRows depth other ++ (initializerRows depth second ++ others)) :
    type = other ∧ initializerRows depth first ++ rest = initializerRows depth second ++ others := by
  have hNone : ∀ {e : Option Expr} {tail : List Row} (t : TypeName) (rows : List Row),
      Outside depth tail →
        initializerRows depth e ++ tail ≠ ⟨depth + 1, "type_name: " ++ t.label⟩ :: rows := by
    intro e tail t rows hTail
    cases e with
    | none => exact hTail.ne_field _ rows
    | some e => cases t <;> simp [initializerRows, TypeName.label]
  cases type with
  | none =>
      cases other with
      | none => exact ⟨rfl, h⟩
      | some u => exact absurd h (hNone u _ hRest)
  | some t =>
      cases other with
      | none => exact absurd h.symm (hNone t _ hOthers)
      | some u =>
          simp only [typeRows, Option.toList_some, List.map_cons, List.map_nil, List.cons_append,
            List.nil_append, List.cons.injEq, Row.mk.injEq, true_and, String.append_right_inj] at h
          exact ⟨congrArg some (TypeName.label_injective h.1), h.2⟩

theorem initializerRows_cancel {first second : Option Expr} (hFirst : ∀ e ∈ first, e.WellFormed)
    (hSecond : ∀ e ∈ second, e.WellFormed) (hRest : Outside depth rest) (hOthers : Outside depth others)
    (h : initializerRows depth first ++ rest = initializerRows depth second ++ others) :
    first = second ∧ rest = others := by
  cases first with
  | none =>
      cases second with
      | none => exact ⟨rfl, h⟩
      | some f => exact absurd h (hRest.ne_field _ _)
  | some e =>
      cases second with
      | none => exact absurd h.symm (hOthers.ne_field _ _)
      | some f =>
          simp only [initializerRows, Option.toList_some, List.flatMap_cons, List.flatMap_nil,
            List.append_nil, List.cons_append, List.cons.injEq, true_and] at h
          obtain ⟨rfl, hTail⟩ := Expr.rows_cancel (hFirst e rfl) (hSecond f rfl) h
          exact ⟨rfl, hTail⟩

/-- The rows of a variable, too, where what follows is not inside of it. -/
theorem rows_cancel {v w : Variable} (hv : v.WellFormed) (hw : w.WellFormed)
    (hRest : Outside depth rest) (hOthers : Outside depth others)
    (h : v.rows depth ++ rest = w.rows depth ++ others) : v = w ∧ rest = others := by
  obtain ⟨name, type, initializer⟩ := v
  obtain ⟨other, otherType, otherInitializer⟩ := w
  simp only [rows, List.cons_append, List.append_assoc, List.cons.injEq, Row.mk.injEq, true_and,
    String.append_right_inj] at h
  obtain ⟨hName, hFields⟩ := h
  have hInitializer : ∀ e ∈ initializer, e.WellFormed := hv.2
  have hOther : ∀ e ∈ otherInitializer, e.WellFormed := hw.2
  obtain ⟨rfl, hTail⟩ := typeRows_cancel hRest hOthers hFields
  obtain ⟨rfl, hBehind⟩ := initializerRows_cancel hInitializer hOther hRest hOthers hTail
  rw [Text.quoted_injective hName]
  exact ⟨rfl, hBehind⟩

end Variable

namespace Stmt

theorem rows_cancel {s t : Stmt} (hs : s.WellFormed) (ht : t.WellFormed)
    (hRest : Outside depth rest) (hOthers : Outside depth others)
    (h : s.rows depth ++ rest = t.rows depth ++ others) : s = t ∧ rest = others := by
  cases s with
  | declaration v =>
      cases t with
      | declaration w =>
          simp only [rows, List.cons_append, List.cons.injEq, true_and] at h
          obtain ⟨rfl, hTail⟩ := Variable.rows_cancel hs ht (hRest.mono (Nat.le_add_right _ _))
            (hOthers.mono (Nat.le_add_right _ _)) h
          exact ⟨rfl, hTail⟩
      | expression => simp [rows] at h
  | expression e =>
      cases t with
      | expression f =>
          simp only [rows, List.cons_append, List.cons.injEq, true_and] at h
          obtain ⟨rfl, hTail⟩ := Expr.rows_cancel hs ht h
          exact ⟨rfl, hTail⟩
      | declaration => simp [rows] at h

/-- The next statements begin at the level of this one. -/
theorem outside_block (stmts : List Stmt) : Outside depth (stmts.flatMap (rows depth)) := by
  cases stmts with
  | nil => exact outside_nil
  | cons s stmts => cases s <;> simp [rows, Outside]

theorem rows_ne_nil (s : Stmt) : s.rows depth ≠ [] := by
  cases s <;> simp [rows]

/-- Statements one after the other are told apart. -/
theorem block_injective {stmts others : List Stmt} (hStmts : ∀ s ∈ stmts, s.WellFormed)
    (hOthers : ∀ s ∈ others, s.WellFormed)
    (h : stmts.flatMap (rows depth) = others.flatMap (rows depth)) : stmts = others := by
  induction stmts generalizing others with
  | nil =>
      cases others with
      | nil => rfl
      | cons t others => exact absurd (List.append_eq_nil_iff.mp h.symm).1 t.rows_ne_nil
  | cons s stmts ih =>
      cases others with
      | nil => exact absurd (List.append_eq_nil_iff.mp h).1 s.rows_ne_nil
      | cons t others =>
          rw [List.forall_mem_cons] at hStmts hOthers
          obtain ⟨rfl, hTail⟩ :=
            rows_cancel hStmts.1 hOthers.1 (outside_block stmts) (outside_block others) h
          rw [ih hStmts.2 hOthers.2 hTail]

end Stmt

theorem Program.statements_of_rows {p q : Program} (hp : ∀ s ∈ p.statements, s.WellFormed)
    (hq : ∀ s ∈ q.statements, s.WellFormed) (h : p.rows depth = q.rows depth) :
    p.statements = q.statements := by
  simp only [rows, List.cons.injEq, true_and] at h
  split_ifs at h with hNone hOther hOther
  · rw [hNone, hOther]
  · simp at h
  · simp at h
  · exact Stmt.block_injective hp hq (List.cons.inj h).2

namespace Node

/-- What can be written of a tree can be read back. -/
def WellFormed : Node → Prop
  | program p => ∀ s ∈ p.statements, s.WellFormed
  | stmt s => s.WellFormed
  | declared v => v.WellFormed
  | expr e => e.WellFormed
  | literal l => l.WellFormed

/-- A tree without the name of its source. -/
def unnamed : Node → Node
  | program p => program { p with filename := "" }
  | node => node

theorem rows_unnamed (node : Node) : node.unnamed.rows depth = node.rows depth := by
  cases node <;> rfl

/-- Which kind of tree the name of a class belongs to. -/
def kindOfClass (name : String) : Nat :=
  if name = "Program" then 0
  else if name ∈ ["DeclarationStmt", "ExpressionStmt"] then 1
  else if name = "Variable" then 2
  else if name ∈ ["LiteralExpr", "VarIdentifier", "Parentheses", "Operation"] then 3
  else 4

theorem kindOfClass_className (node : Node) : kindOfClass node.className = node.ctorIdx := by
  rcases node with p | s | v | e | l
  · rfl
  · cases s <;> rfl
  · rfl
  · cases e <;> rfl
  · cases l <;> rfl

/-- The rows of a tree are those of no other one. -/
theorem unnamed_of_rows {m n : Node} (hm : m.WellFormed) (hn : n.WellFormed)
    (h : m.rows depth = n.rows depth) : m.unnamed = n.unnamed := by
  have hKind : m.ctorIdx = n.ctorIdx := by
    rw [rows_eq, rows_eq, List.cons.injEq, Row.mk.injEq] at h
    rw [← kindOfClass_className, ← kindOfClass_className, h.1.2]
  have hAppended : m.rows depth ++ [] = n.rows depth ++ [] := by rw [h]
  -- the kind leaves only pairs of the same constructor
  match m, n with
  | program p, program q =>
      simp only [unnamed, Program.statements_of_rows hm hn h]
  | stmt s, stmt t => rw [(Stmt.rows_cancel hm hn outside_nil outside_nil hAppended).1]
  | declared v, declared w => rw [(Variable.rows_cancel hm hn outside_nil outside_nil hAppended).1]
  | expr e, expr f => rw [(Expr.rows_cancel hm hn hAppended).1]
  | literal l, literal k => rw [(Literal.rows_cancel hm hn hAppended).1]

end Node

end Scriptlet
