import Scriptlet.Proofs.Grammar.Recognition
import Scriptlet.Proofs.Grammar.Statement
import Scriptlet.Proofs.Parsing.Depth

namespace Scriptlet.Grammar

open Scriptlet.Parser

/-! What a production comes to is the same at every greater depth. -/

section Deeper

variable {α : Type} {d d' : Nat}

/-- Tokens are read without any depth. -/
theorem Recognises.lasts {p : Parser α} {spells : α → Token → Prop} {name : String}
    (h : Recognises p spells name) : Lasts d d' p := by
  apply lasts_of_eq
  intro c
  rcases h.hit_or_miss d c with ⟨value, t, rest, hSpells, hRead, hStep⟩ | ⟨hNone, hStep⟩
  · rw [hStep, h.hit hSpells hRead]
  · rw [hStep, h.miss hNone]

theorem lasts_symbol {x : Char} (hMark : x ∈ marks) : Lasts d d' (symbol x) :=
  (recognises_symbol hMark).lasts

theorem lasts_stringLiteral : Lasts d d' stringLiteral := by
  apply lasts_of_eq
  intro c
  by_cases hHead : c.rest.head? = some '"'
  · obtain ⟨text, hText⟩ := List.head?_eq_some_iff.mp hHead
    rcases read_quotation text with ⟨body, rest, hRead⟩ | hOpen
    · rw [← hText] at hRead
      rw [stringLiteral_of_read hRead, stringLiteral_of_read hRead]
    · rw [stringLiteral_of_open hText hOpen, stringLiteral_of_open hText hOpen]
  · rw [stringLiteral_of_miss hHead, stringLiteral_of_miss hHead]

theorem lasts_literal : Lasts d d' literal := by
  apply recognises_number.lasts.choice
  intro p hp
  simp only [List.mem_cons, List.not_mem_nil, or_false] at hp
  rcases hp with rfl | rfl
  · exact lasts_stringLiteral
  · exact recognises_boolean.lasts

theorem lasts_operand {inner : Parser Expr} (hInner : Lasts d d' inner) :
    Lasts d d' (operand inner) := by
  have hOpen : Lasts d d' openParen := lasts_symbol (by decide)
  have hClose : Lasts d d' closeParen := lasts_symbol (by decide)
  apply lasts_literal.choice
  intro p hp
  simp only [List.mem_cons, List.not_mem_nil, or_false] at hp
  rcases hp with rfl | rfl
  · exact (hOpen.between hClose hInner).map _
  · exact recognises_identifier.lasts.map _

/-- By induction on the smaller depth: only entering an expression counts. -/
theorem lasts_expression (h : d ≤ d') : Lasts d d' expression := by
  induction d generalizing d' with
  | zero =>
      intro c
      rw [expression_zero]
      exact .gaveUp _
  | succ d ih =>
      intro c
      obtain ⟨deeper, rfl⟩ : ∃ deeper, d' = deeper + 1 := ⟨d' - 1, by omega⟩
      have hOperand := lasts_operand (ih (Nat.le_of_succ_le_succ h))
      rw [expression_succ, expression_succ]
      exact hOperand.chainLeft (recognises_operator.lasts.map _) c

variable (h : d ≤ d')

include h

theorem lasts_initializer : Lasts d d' initializer := by
  have hEquals : Lasts d d' (symbol '=') := lasts_symbol (by decide)
  have hSemicolon : Lasts d d' (symbol ';') := lasts_symbol (by decide)
  have hValue := (hEquals.keepRight (lasts_expression h)).keepLeft hSemicolon
  exact (hValue.map some).orElse (hSemicolon.keepRight (lasts_pure none))

theorem lasts_declaration : Lasts d d' declaration := by
  have hColon : Lasts d d' (symbol ':') := lasts_symbol (by decide)
  have hKeyword : Lasts d d' (keyword "let") := (recognises_keyword isName_let).lasts
  have hType := (hColon.keepRight recognises_typeName.lasts).optional
  have hName := hKeyword.keepRight recognises_identifier.lasts
  exact (hName.triple hType (lasts_initializer h)).map _

theorem lasts_statement : Lasts d d' statement :=
  ((lasts_declaration h).map Stmt.declaration).attempt.orElse ((lasts_expression h).map _)

omit h in
theorem lasts_separator : Lasts d d' statementSeparator :=
  (lasts_symbol (by decide : ';' ∈ marks)).optional

end Deeper

/-- A text begins with a number of parentheses that open groups, with nothing
but blanks between them. -/
inductive StartsGroups : Nat → List Char → Prop where
  | zero (text : List Char) : StartsGroups 0 text
  | succ {n : Nat} {run text : List Char} (hRun : IsBlank run) (inner : StartsGroups n text) :
      StartsGroups (n + 1) ('(' :: (run ++ text))

namespace StartsGroups

variable {n k : Nat} {text : List Char}

theorem mono (h : StartsGroups n text) (hFewer : k ≤ n) : StartsGroups k text := by
  induction h generalizing k with
  | zero text =>
      obtain rfl := Nat.le_zero.mp hFewer
      exact .zero text
  | succ hRun inner ih =>
      cases k with
      | zero => exact .zero _
      | succ k => exact .succ hRun (ih (Nat.le_of_succ_le_succ hFewer))

theorem head? (h : StartsGroups (n + 1) text) : text.head? = some '(' := by
  cases h with
  | succ => rfl

theorem noBlank (h : StartsGroups (n + 1) text) : NoBlank text := by
  intro x hx
  rw [h.head?] at hx
  cases hx
  decide

theorem replicate (n : Nat) : StartsGroups n (List.replicate n '(') := by
  induction n with
  | zero => exact .zero []
  | succ n ih =>
      exact .succ isBlank_nil ih

/-- Inside the first group one parenthesis fewer is open. -/
theorem inside (h : StartsGroups (n + 1) text) :
    ∃ mid, Token.openParen.Read text mid ∧ StartsGroups n mid := by
  cases h with
  | @succ _ run text hRun inner =>
      cases n with
      | zero =>
          obtain ⟨mid, hRead⟩ := Token.exists_read .openParen (run ++ text) Token.valid_openParen
            fun _ _ => rfl
          exact ⟨mid, hRead, .zero mid⟩
      | succ n =>
          have hRead : Token.openParen.Read _ text :=
            .intro Token.valid_openParen hRun inner.noBlank fun _ _ => rfl
          exact ⟨text, hRead, inner⟩

end StartsGroups

variable {d : Nat} {c : Cursor}

/-- As many groups as there is depth are too many. -/
theorem expression_of_startsGroups (h : StartsGroups d c.rest) :
    expression.step d c = .halted .tooDeep := by
  induction d generalizing c with
  | zero => exact expression_zero
  | succ d ih =>
      obtain ⟨mid, hOpen, hMid⟩ := h.inside
      have hReached : (c.before mid).rest = mid := Cursor.rest_before hOpen.suffix
      have hInner : expression.step d (c.before mid) = .halted .tooDeep := ih (by rwa [hReached])
      have hOperand := operand_of_group_halted hOpen (enclosed_of_halted hOpen hInner)
      rw [expression_succ]
      simp [chainLeft, hOperand]

/-- No declaration begins with a group, so that none comes in between. -/
theorem statement_of_startsGroups (h : StartsGroups d c.rest) (hDepth : 0 < d) :
    statement.step d c = .halted .tooDeep := by
  obtain ⟨k, rfl⟩ : ∃ k, d = k + 1 := ⟨d - 1, by omega⟩
  have hKeyword : ∀ rest, ¬ (Token.word "let".toList).Read c.rest rest := by
    intro rest hRead
    have hHead := hRead.head?
    rw [h.head?] at hHead
    exact absurd hHead (by decide)
  exact statement_of_expression_halted (declaration_of_keyword_miss hKeyword)
    (expression_of_startsGroups h)

end Scriptlet.Grammar
