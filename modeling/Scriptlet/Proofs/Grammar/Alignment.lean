import Scriptlet.Proofs.Grammar.Recognition
import Scriptlet.Proofs.Grammar.Statement
import Scriptlet.Proofs.Parsing.Alignment

namespace Scriptlet

open Grammar Scriptlet.Parser

namespace Alignment

variable {A : Alignment}

/-- What stands at a place of the first text also stands at the corresponding
place of the second one: tokens, strings that are never closed, and the end. -/
structure Carries (A : Alignment) : Prop where
  token : ∀ {c c' : Cursor} {t : Token} {mid : List Char}, A.cursors c c' → t.Read c.rest mid →
    ∃ mid', t.Read c'.rest mid' ∧ A.cursors (c.before mid) (c'.before mid')
  quote : ∀ {c c' : Cursor} {body : List Char}, A.cursors c c' → c.rest = '"' :: body →
    '"' ∉ body → ∃ body', c'.rest = '"' :: body' ∧ '"' ∉ body' ∧
      A.offsets (c.before []).offset (c'.before []).offset
  ending : ∀ {c c' : Cursor}, A.cursors c c' → c.rest = [] → c'.rest = []

/-- The same stands at places that correspond. -/
structure Faithful (A : Alignment) : Prop where
  forth : A.Carries
  back : A.flip.Carries

theorem Carries.head_quote (h : A.Carries) {c c' : Cursor} (hSame : A.cursors c c')
    (hHead : c.rest.head? = some '"') : c'.rest.head? = some '"' := by
  obtain ⟨text, hText⟩ := List.head?_eq_some_iff.mp hHead
  rcases read_quotation text with ⟨body, rest, hRead⟩ | hOpen
  · obtain ⟨mid', hRead', _⟩ := h.token hSame (hText ▸ hRead)
    exact hRead'.head?
  · obtain ⟨body', hBody', _⟩ := h.quote hSame hText hOpen
    rw [hBody']
    rfl

end Alignment

namespace Grammar

variable {α : Type} {A : Alignment} (hA : A.Faithful) (d : Nat)

include hA

/-! Every production does the same at places that correspond. -/

theorem Recognises.linked {p : Parser α} {spells : α → Token → Prop} {name : String}
    (h : Recognises p spells name) : Linked A.link d p p := by
  intro c c' hSame
  rcases h.hit_or_miss d c with ⟨value, t, rest, hSpells, hRead, hStep⟩ | ⟨hNone, hStep⟩
  · obtain ⟨rest', hRead', hNext⟩ := hA.forth.token hSame hRead
    rw [hStep, h.hit hSpells hRead']
    exact .success value hNext
  · have hNone' : ∀ value t rest, spells value t → ¬ t.Read c'.rest rest := by
      intro value t rest' hSpells hRead'
      obtain ⟨rest, hRead, _⟩ := hA.back.token hSame hRead'
      exact hNone value t rest hSpells hRead
    rw [hStep, h.miss hNone']
    exact .failure (Alignment.sameFailure_here hSame name)

theorem linked_symbol {x : Char} (hMark : x ∈ marks) : Linked A.link d (symbol x) (symbol x) :=
  (recognises_symbol hMark).linked hA d

theorem linked_stringLiteral : Linked A.link d stringLiteral stringLiteral := by
  intro c c' hSame
  by_cases hHead : c.rest.head? = some '"'
  · obtain ⟨text, hText⟩ := List.head?_eq_some_iff.mp hHead
    rcases read_quotation text with ⟨body, rest, hRead⟩ | hOpen
    · rw [← hText] at hRead
      obtain ⟨rest', hRead', hNext⟩ := hA.forth.token hSame hRead
      rw [stringLiteral_of_read hRead, stringLiteral_of_read hRead']
      exact .success _ hNext
    · obtain ⟨body', hText', hOpen', hEnd⟩ := hA.forth.quote hSame hText hOpen
      rw [stringLiteral_of_open hText hOpen, stringLiteral_of_open hText' hOpen']
      exact .failure ⟨hEnd, rfl, rfl⟩
  · have hHead' : c'.rest.head? ≠ some '"' := fun hBad => hHead (hA.back.head_quote hSame hBad)
    rw [stringLiteral_of_miss hHead, stringLiteral_of_miss hHead']
    exact .failure (Alignment.sameFailure_here hSame "string")

theorem linked_literal : Linked A.link d literal literal := by
  apply (recognises_number.linked hA d).choice
  intro q hq
  simp only [List.mem_cons, List.not_mem_nil, or_false] at hq
  rcases hq with rfl | rfl
  · exact linked_stringLiteral hA d
  · exact recognises_boolean.linked hA d

variable {d}

theorem linked_group {inner : Parser Expr} (hInner : Linked A.link d inner inner) :
    Linked A.link d (group inner) (group inner) := by
  have hOpen : Linked A.link d openParen openParen := linked_symbol hA d (by decide)
  have hClose : Linked A.link d closeParen closeParen := linked_symbol hA d (by decide)
  exact (hOpen.between hClose hInner).map _

theorem linked_operand {inner : Parser Expr} (hInner : Linked A.link d inner inner) :
    Linked A.link d (operand inner) (operand inner) := by
  apply (linked_literal hA d).choice
  intro q hq
  simp only [List.mem_cons, List.not_mem_nil, or_false] at hq
  rcases hq with rfl | rfl
  · exact linked_group hA hInner
  · exact (recognises_identifier.linked hA d).map _

omit hA in
theorem moves_operand (d : Nat) : Moves d (operand expression) := by
  intro c value next h
  have hOutcome := operand_outcome (expression_outcome d) c
  rw [h] at hOutcome
  generalize hResult : Outcome.success value next = outcome at hOutcome
  cases hOutcome with
  | success hSpelling _ _ _ hWritten =>
      cases hResult
      rw [Cursor.rest_before hWritten.suffix]
      exact hWritten.length_lt hSpelling.ne_nil
  | failure | tooDeep => cases hResult

/-- By induction on the depth that is left. -/
theorem linked_expression (d : Nat) : Linked A.link d expression expression := by
  induction d with
  | zero =>
      intro c c' _
      rw [expression_zero, expression_zero]
      exact .halted .tooDeep
  | succ d ih =>
      intro c c' hSame
      have hOperator := (recognises_operator.linked hA d).map Expr.operation
      have hFree := (recognises_operator.neverCommits d).map Expr.operation
      have hMoves := (recognises_operator.moves d).map Expr.operation
      rw [expression_succ, expression_succ]
      exact Linked.chainLeft (linked_operand hA ih) hOperator hFree hFree (moves_operand d)
        (moves_operand d) hMoves hMoves c c' hSame

variable (d)

theorem linked_typeAnnotation : Linked A.link d typeAnnotation typeAnnotation := by
  have hColon := linked_symbol hA d (by decide : ':' ∈ marks)
  exact (hColon.keepRight (recognises_typeName.linked hA d)).optional

theorem linked_initializer : Linked A.link d initializer initializer := by
  have hEquals := linked_symbol hA d (by decide : '=' ∈ marks)
  have hSemicolon := linked_symbol hA d (by decide : ';' ∈ marks)
  have hValue := (hEquals.keepRight (linked_expression hA d)).keepLeft hSemicolon
  exact (hValue.map some).orElse (hSemicolon.keepRight (linked_pure A.link d none))

theorem linked_declaration : Linked A.link d declaration declaration := by
  have hName := ((recognises_keyword isName_let).linked hA d).keepRight
    (recognises_identifier.linked hA d)
  have hType := linked_typeAnnotation hA d
  exact (hName.triple hType (linked_initializer hA d)).map _

theorem linked_statement : Linked A.link d statement statement :=
  ((linked_declaration hA d).map Stmt.declaration).attempt.orElse ((linked_expression hA d).map _)

theorem linked_separator : Linked A.link d statementSeparator statementSeparator :=
  (linked_symbol hA d (by decide : ';' ∈ marks)).optional

theorem linked_endOfInput : Linked A.link d endOfInput endOfInput := by
  intro c c' hSame
  cases hText : c.rest with
  | nil =>
      have hEnd := hA.forth.ending hSame hText
      simp only [endOfInput, hText, hEnd]
      exact .success () hSame
  | cons x text =>
      cases hText' : c'.rest with
      | nil =>
          have hEnd := hA.back.ending hSame hText'
          rw [hText] at hEnd
          cases hEnd
      | cons x' text' =>
          simp only [endOfInput, hText, hText']
          exact .failure (Alignment.sameFailure_here hSame "end of input")

end Grammar

end Scriptlet
