import Scriptlet.Proofs.ProjectCheck
import Scriptlet.Proofs.Soundness
import Scriptlet.Proofs.Syntax.Recovery
import Scriptlet.Proofs.Text.Escape

namespace Scriptlet

open Text (Clean clean_nil clean_append clean_of_all)

variable {depth : Nat}

/-- A text that a row may begin with: something, with neither a blank in front
nor a control character anywhere. -/
def isLabel (text : String) : Bool :=
  text.toList.head?.any (· != ' ') && text.toList.all (32 ≤ ·.toNat)

namespace Row

/-- A row that can be told from its line: no blank of the text counts as
indentation, and no control character ends the line or changes it. -/
structure Plain (row : Row) : Prop where
  flush : row.text.toList.head? ≠ some ' '
  clean : Clean row.text.toList

theorem plain_of_field (level : Nat) {label text : String} (hLabel : isLabel label = true)
    (hText : Clean text.toList) : Plain ⟨level, label ++ text⟩ := by
  rw [isLabel, Bool.and_eq_true] at hLabel
  obtain ⟨hHead, hClean⟩ := hLabel
  refine ⟨?_, ?_⟩
  · rw [String.toList_append]
    cases hChars : label.toList with
    | nil => simp [hChars] at hHead
    | cons c rest => simpa [hChars] using hHead
  · rw [String.toList_append]
    exact clean_append.mpr ⟨clean_of_all hClean, hText⟩

theorem plain_of_label (level : Nat) {text : String} (h : isLabel text = true) :
    Plain ⟨level, text⟩ := by
  have hField : Plain ⟨level, text ++ ""⟩ := plain_of_field level h clean_nil
  rwa [String.append_empty] at hField

theorem toList_line (row : Row) :
    row.line.toList = List.replicate (2 * row.level) ' ' ++ row.text.toList := by
  simp [line, blanks]

theorem Plain.clean_line {row : Row} (h : row.Plain) : Clean row.line.toList := by
  rw [toList_line, clean_append]
  refine ⟨fun c hc => ?_, h.clean⟩
  rw [List.eq_of_mem_replicate hc]
  decide

/-- The blanks of a line are its indentation, and the rest is its text. -/
theorem Plain.eq_of_line {row other : Row} (hRow : row.Plain) (hOther : other.Plain)
    (h : row.line = other.line) : row = other := by
  have hChars := congrArg String.toList h
  rw [toList_line, toList_line] at hChars
  obtain ⟨hLevel, hText⟩ := Text.replicate_append_cancel hRow.flush hOther.flush hChars
  obtain ⟨level, text⟩ := row
  obtain ⟨otherLevel, otherText⟩ := other
  rw [Row.mk.injEq]
  exact ⟨by simpa using hLevel, String.toList_injective hText⟩

theorem eq_of_lines {rows others : List Row} (hRows : ∀ row ∈ rows, row.Plain)
    (hOthers : ∀ row ∈ others, row.Plain) (h : rows.map line = others.map line) : rows = others := by
  induction rows generalizing others with
  | nil => exact (List.map_eq_nil_iff.mp h.symm).symm
  | cons row rows ih =>
      cases others with
      | nil => cases h
      | cons other others =>
          rw [List.forall_mem_cons] at hRows hOthers
          rw [List.map_cons, List.map_cons, List.cons.injEq] at h
          rw [hRows.1.eq_of_line hOthers.1 h.1, ih hRows.2 hOthers.2 h.2]

end Row

/-- Whatever a string of the source contains, it is shown in one line. -/
theorem Literal.clean_shown {l : Literal} (hl : l.WellFormed) : Clean l.shown.toList := by
  cases l with
  | int n => exact Number.clean_integerText n
  | float x =>
      cases x with
      | infinite => exact clean_of_all rfl
      | finite => exact fun c hc =>
          Number.le_of_isNumeric ((Number.Binary64.text_of_finite hl.canonical).1 c hc)
  | string s => exact Text.clean_quoted s
  | bool b => cases b <;> exact clean_of_all rfl

theorem Literal.plain_rows {l : Literal} (hl : l.WellFormed) : ∀ row ∈ l.rows depth, row.Plain := by
  have hClass : isLabel l.className = true := by
    cases l <;>
      · rw [className]
        rfl
  simp only [rows, List.forall_mem_cons]
  exact ⟨Row.plain_of_label _ hClass, Row.plain_of_field _ rfl (clean_shown hl), by simp⟩

theorem Row.plain_of_name (level : Nat) (name : String) :
    Plain ⟨level, "name: " ++ Text.quoted name⟩ :=
  plain_of_field level rfl (Text.clean_quoted name)

theorem Expr.plain_rows {e : Expr} (he : e.WellFormed) : ∀ row ∈ e.rows depth, row.Plain := by
  induction e generalizing depth with
  | literal l =>
      simp only [rows, List.forall_mem_cons]
      exact ⟨Row.plain_of_label _ rfl, Row.plain_of_label _ rfl, Literal.plain_rows he⟩
  | var name =>
      simp only [rows, List.forall_mem_cons]
      exact ⟨Row.plain_of_label _ rfl, Row.plain_of_name _ name, by simp⟩
  | parens inner ih =>
      simp only [rows, List.forall_mem_cons]
      exact ⟨Row.plain_of_label _ rfl, Row.plain_of_label _ rfl, ih he⟩
  | operation op left right ihLeft ihRight =>
      simp only [rows, List.cons_append, List.forall_mem_cons, List.forall_mem_append]
      refine ⟨Row.plain_of_label _ rfl, ?_, Row.plain_of_label _ rfl, ihLeft he.1,
        Row.plain_of_label _ rfl, ihRight he.2.1⟩
      cases op <;> exact Row.plain_of_label _ rfl

theorem Variable.plain_rows {v : Variable} (hv : v.WellFormed) :
    ∀ row ∈ v.rows depth, row.Plain := by
  obtain ⟨name, type, initializer⟩ := v
  have hInitializer : ∀ e ∈ initializer, e.WellFormed := hv.2
  simp only [rows, List.cons_append, List.forall_mem_cons, List.forall_mem_append]
  refine ⟨Row.plain_of_label _ rfl, Row.plain_of_name _ name, ?_, ?_⟩
  · cases type with
    | none => simp [typeRows]
    | some t =>
        simp only [typeRows, Option.toList_some, List.map_cons, List.map_nil, List.forall_mem_cons]
        refine ⟨?_, by simp⟩
        cases t <;> exact Row.plain_of_label _ rfl
  · cases initializer with
    | none => simp [initializerRows]
    | some e =>
        simp only [initializerRows, Option.toList_some, List.flatMap_cons, List.flatMap_nil,
          List.append_nil, List.forall_mem_cons]
        exact ⟨Row.plain_of_label _ rfl, Expr.plain_rows (hInitializer e rfl)⟩

theorem Stmt.plain_rows {s : Stmt} (hs : s.WellFormed) : ∀ row ∈ s.rows depth, row.Plain := by
  cases s <;> simp only [rows, List.forall_mem_cons]
  · exact ⟨Row.plain_of_label _ rfl, Row.plain_of_label _ rfl, Variable.plain_rows hs⟩
  · exact ⟨Row.plain_of_label _ rfl, Row.plain_of_label _ rfl, Expr.plain_rows hs⟩

/-- Every row of a tree can be told from its line. -/
theorem Node.plain_rows {node : Node} (h : node.WellFormed) : ∀ row ∈ node.rows depth, row.Plain := by
  cases node with
  | program p =>
      simp only [rows, Program.rows, List.forall_mem_cons]
      refine ⟨Row.plain_of_label _ rfl, ?_⟩
      split
      · simp only [List.forall_mem_cons]
        exact ⟨Row.plain_of_label _ rfl, by simp⟩
      · simp only [List.forall_mem_cons]
        refine ⟨Row.plain_of_label _ rfl, fun row hRow => ?_⟩
        obtain ⟨s, hs, hRow⟩ := List.mem_flatMap.mp hRow
        exact Stmt.plain_rows (h s hs) row hRow
  | stmt s => exact Stmt.plain_rows h
  | declared v => exact Variable.plain_rows h
  | expr e => exact Expr.plain_rows h
  | literal l => exact Literal.plain_rows h

namespace Command

/-- What is said about a source whose tree is shown. -/
def shownTree (node : Node) : Report := ⟨node.dump.map fun line => (.output, line), .exit 0⟩

theorem text_shownTree (node : Node) (terminal : Bool) :
    (shownTree node).text terminal .output = shownAll terminal node.dump := by
  rw [Report.text, shownTree, shownAll, List.filterMap_map]
  congr 1
  rw [← List.filterMap_eq_map]
  rfl

/-- A line without control characters is shown as it is, on a terminal or not. -/
theorem toList_shown (terminal : Bool) {message : String} (h : Clean message.toList) :
    (Report.shown terminal message).toList = message.toList ++ ['\n'] := by
  have hEscape : Text.escape ∉ message.toList ++ ['\n'] := by
    rw [List.mem_append, not_or]
    exact ⟨h.not_mem (by decide), by decide⟩
  cases terminal with
  | true => simp [Report.shown]
  | false => simp [Report.shown, Text.eraseEscapes_of_not_mem hEscape]

/-- Messages of one line each are found again in all that is shown. -/
theorem eq_of_shownAll {terminal : Bool} {messages others : List String}
    (hMessages : ∀ message ∈ messages, Clean message.toList)
    (hOthers : ∀ message ∈ others, Clean message.toList)
    (h : shownAll terminal messages = shownAll terminal others) : messages = others := by
  have hChars : ∀ {lines : List String}, (∀ line ∈ lines, Clean line.toList) →
      (shownAll terminal lines).toList = (lines.map String.toList).flatMap (· ++ ['\n']) := by
    intro lines hLines
    rw [shownAll, String.toList_join, List.flatMap_map, List.flatMap_map]
    exact List.flatMap_congr fun line hLine => toList_shown terminal (hLines line hLine)
  have hFeed : ∀ {lines : List String}, (∀ line ∈ lines, Clean line.toList) →
      ∀ line ∈ lines.map String.toList, '\n' ∉ line := by
    intro lines hLines line hLine
    obtain ⟨text, hText, rfl⟩ := List.mem_map.mp hLine
    exact (hLines text hText).not_mem (by decide)
  have hSame := congrArg String.toList h
  rw [hChars hMessages, hChars hOthers] at hSame
  exact List.map_injective_iff.mpr (fun _ _ => String.toList_injective)
    (Text.flatMap_mark_cancel (hFeed hMessages) (hFeed hOthers) hSame)

end Command

open Grammar

/-- The trees that the productions of the grammar give: one at some place of a
text, or all of a source. -/
inductive Yielded : Node → Prop where
  | statement {limit pos : Nat} {text : List Char} {s : Stmt} {next : Cursor}
      (h : Grammar.statement.runWithin limit text pos = .success s next) : Yielded (.stmt s)
  | expression {limit pos : Nat} {text : List Char} {e : Expr} {next : Cursor}
      (h : Grammar.expression.runWithin limit text pos = .success e next) : Yielded (.expr e)
  | declaration {limit pos : Nat} {text : List Char} {v : Variable} {next : Cursor}
      (h : Grammar.declaration.runWithin limit text pos = .success v next) : Yielded (.declared v)
  | parse {limit : Nat} {source : Source} {entry : Entry} {node : Node}
      (h : source.parseWithin limit entry = .ok node) : Yielded node

theorem Sentence.wellFormed {limit : Nat} {filename : String} {entry : Entry} {ts : List Token}
    {node : Node} (h : Sentence limit filename entry ts node) : node.WellFormed := by
  cases h with
  | @program pieces _ _ =>
      intro s hs
      obtain ⟨piece, _, rfl⟩ := List.mem_map.mp hs
      exact piece.form
  | declared _ hForm | bare _ hForm | expression _ hForm | declaration _ hForm => exact hForm

theorem Yielded.wellFormed {node : Node} (h : Yielded node) : node.WellFormed := by
  cases h with
  | @statement limit pos text s next h =>
      have hOutcome := statement_outcome limit (Cursor.place text pos)
      rw [Parser.runWithin] at h
      rw [h] at hOutcome
      cases hOutcome with
      | declaration _ hForm | expression _ hForm => exact hForm
  | expression h => exact (Grammar.expression_faithful h).1
  | @declaration limit pos text v next h =>
      have hOutcome := declaration_outcome limit (Cursor.place text pos)
      rw [Parser.runWithin] at h
      rw [h] at hOutcome
      cases hOutcome with
      | success _ hForm => exact hForm
  | @parse limit source entry _ h =>
      obtain ⟨_, _, _, _, _, hOutcome⟩ := Source.exists_parseOutcome h
      cases hOutcome with
      | accepted hSentence _ => exact hSentence.wellFormed

open Command in
/-- Two trees are shown alike if and only if they are the same, but for the name
of the source. -/
theorem dump_faithful {m n : Node} (hm : Yielded m) (hn : Yielded n) (terminal : Bool) :
    (shownTree m).text terminal .output = (shownTree n).text terminal .output ↔
      m.unnamed = n.unnamed := by
  have hLines : ∀ {node : Node}, node.WellFormed → ∀ line ∈ node.dump, Clean line.toList := by
    intro node hForm line hLine
    rw [Node.dump_eq_rows] at hLine
    obtain ⟨row, hRow, rfl⟩ := List.mem_map.mp hLine
    exact (Node.plain_rows hForm row hRow).clean_line
  rw [text_shownTree, text_shownTree]
  constructor
  · intro h
    have hDump := eq_of_shownAll (hLines hm.wellFormed) (hLines hn.wellFormed) h
    rw [Node.dump_eq_rows, Node.dump_eq_rows] at hDump
    have hRows := Row.eq_of_lines (Node.plain_rows hm.wellFormed) (Node.plain_rows hn.wellFormed) hDump
    exact Node.unnamed_of_rows hm.wellFormed hn.wellFormed hRows
  · intro h
    rw [Node.dump_eq_rows, Node.dump_eq_rows, ← Node.rows_unnamed m, ← Node.rows_unnamed n, h]

open Command in
/-- Neither the layout of a source nor its name leaves a trace, but a point in a
number does. -/
theorem dump_faithful_number :
    (shownTree (.program ⟨[.expression (.literal (.int 1))], "a"⟩)).text false .output =
        (shownTree (.program ⟨[.expression (.literal (.int 1))], "b"⟩)).text false .output ∧
      (shownTree (.program ⟨[.expression (.literal (.int 1))], "a"⟩)).text false .output ≠
        (shownTree (.program ⟨[.expression (.literal (.float (.finite (2 ^ 52) (-52))))], "a"⟩)).text
          false .output := by
  have hPlain : Yielded (.program ⟨[.expression (.literal (.int 1))], "a"⟩) := by
    have hParsed : Source.parseWithin 1 ⟨"a", "1".toList⟩ .program =
        .ok (.program ⟨[.expression (.literal (.int 1))], "a"⟩) := by rfl
    exact .parse hParsed
  have hSpaced : Yielded (.program ⟨[.expression (.literal (.int 1))], "b"⟩) := by
    have hParsed : Source.parseWithin 1 ⟨"b", " 01 ;".toList⟩ .program =
        .ok (.program ⟨[.expression (.literal (.int 1))], "b"⟩) := by rfl
    exact .parse hParsed
  have hPoint :
      Yielded (.program ⟨[.expression (.literal (.float (.finite (2 ^ 52) (-52))))], "a"⟩) := by
    have hParsed : Source.parseWithin 1 ⟨"a", "1.0".toList⟩ .program =
        .ok (.program ⟨[.expression (.literal (.float (.finite (2 ^ 52) (-52))))], "a"⟩) := by rfl
    exact .parse hParsed
  refine ⟨(dump_faithful hPlain hSpaced false).mpr rfl, fun hSame => ?_⟩
  exact nomatch (dump_faithful hPlain hPoint false).mp hSame

end Scriptlet
