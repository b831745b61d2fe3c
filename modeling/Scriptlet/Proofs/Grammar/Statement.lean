import Scriptlet.Proofs.Grammar.Declaration

namespace Scriptlet

open Grammar

namespace Stmt

/-- The expression in a statement, which a declaration may lack. -/
def expression? : Stmt → Option Expr
  | declaration v => v.initializer
  | expression e => some e

def WellFormed : Stmt → Prop
  | declaration v => v.WellFormed
  | expression e => e.WellFormed

/-- The tokens of a statement in a program. A declaration has its semicolon,
an expression may or may not be followed by one. -/
inductive Spelling : Stmt → List Token → Prop where
  | declaration {v : Variable} {ts : List Token} (h : v.Spelling ts) : Spelling (.declaration v) ts
  | bare {e : Expr} {ts : List Token} (h : e.Spelling ts) : Spelling (.expression e) ts
  | terminated {e : Expr} {ts : List Token} (h : e.Spelling ts) :
      Spelling (.expression e) (ts ++ [.semicolon])

end Stmt

namespace Grammar

open Scriptlet.Parser

variable {d k : Nat} {c : Cursor} {text mid rest : List Char} {ts us : List Token} {labels : Labels}

/-! The first tokens of an expression. -/

theorem startsOperand_of_word {name : List Char} (h : (Token.word name).Read text rest) :
    StartsOperand text := by
  obtain ⟨x, hx, hStart⟩ := h.head_word
  exact ⟨x, hx, .inr (.inr (.inr hStart))⟩

theorem startsOperand_of_literal {value : Literal} {t : Token} (h : value.Spelling t) :
    StartsOperand t.text := by
  cases h with
  | @int run hRun =>
      cases run with
      | nil => exact absurd rfl hRun.1
      | cons x run => exact ⟨x, rfl, .inl (hRun.2 x List.mem_cons_self)⟩
  | @float whole fraction hWhole hFraction =>
      cases whole with
      | nil => exact absurd rfl hWhole.1
      | cons x whole => exact ⟨x, rfl, .inl (hWhole.2 x List.mem_cons_self)⟩
  | string value => exact ⟨'"', rfl, .inr (.inl rfl)⟩
  | bool value =>
      cases value with
      | true => exact ⟨'t', rfl, .inr (.inr (.inr (by decide)))⟩
      | false => exact ⟨'f', rfl, .inr (.inr (.inr (by decide)))⟩

/-- An expression begins with an operand. -/
theorem startsOperand_of_spelling {e : Expr} (h : e.Spelling ts) (hForm : e.WellFormed) :
    ∀ t ∈ ts.head?, StartsOperand t.text := by
  induction h with
  | literal h =>
      intro t ht
      obtain rfl := Option.some.inj ht
      exact startsOperand_of_literal h
  | var name =>
      intro t ht
      obtain rfl := Option.some.inj ht
      have hName : IsName name.toList := hForm.1
      show StartsOperand name.toList
      cases hSpelled : name.toList with
      | nil => exact absurd hSpelled hName.ne_nil
      | cons x tail =>
          rw [hSpelled] at hName
          exact ⟨x, rfl, .inr (.inr (.inr hName.1))⟩
  | parens h ih =>
      intro t ht
      obtain rfl := Option.some.inj ht
      exact ⟨'(', rfl, .inr (.inr (.inl rfl))⟩
  | @operation op left right ts us hLeft hRight ihLeft ihRight =>
      intro t ht
      refine ihLeft hForm.1 t ?_
      cases ts with
      | nil => exact absurd rfl hLeft.ne_nil
      | cons first others => exact ht

/-- No operand begins with a character of an operator. -/
theorem not_operand_of_operator {op : Operator} {x : Char} (h : x ∈ op.symbol.toList) :
    ¬ (x.isDigit = true ∨ x = '"' ∨ x = '(' ∨ isNameStart x = true) := by
  have hNone := operator_all (fun y => !(y.isDigit || y == '"' || y == '(' || isNameStart y))
    (by decide) op x h
  simpa [and_assoc] using hNone

/-- Where an operand starts no operator stands. -/
theorem StartsOperand.noOperator (h : StartsOperand text) : NoOperator text := by
  obtain ⟨x, hx, hKind⟩ := h
  refine noOperator_of_head? hx fun op _ hOp => ?_
  exact not_operand_of_operator (List.mem_of_mem_head? hOp) hKind

theorem StartsOperand.head_ne {x : Char} (h : StartsOperand text)
    (hx : ¬ (x.isDigit = true ∨ x = '"' ∨ x = '(' ∨ isNameStart x = true)) :
    text.head? ≠ some x := by
  obtain ⟨y, hy, hKind⟩ := h
  rintro hSame
  obtain rfl : x = y := by simpa [hSame] using hy
  exact hx hKind

/-! Where a declaration cannot begin. -/

/-- What comes after the name in a declaration: a colon, a semicolon, or an
equals sign and an operand. -/
def AfterName (text : List Char) : Prop :=
  text.head? = some ':' ∨ text.head? = some ';' ∨
    ∃ mid, (Token.mark '=').Read text mid ∧ StartsOperand mid

/-- The text begins like a declaration, at least to where its name is over. -/
def MayDeclare (text : List Char) : Prop :=
  ∃ name afterLet afterName, (Token.word "let".toList).Read text afterLet ∧
    (Token.word name).Read afterLet afterName ∧ AfterName afterName

theorem expression_of_miss (h : ¬ StartsOperand c.rest) :
    expression.step (d + 1) c = .failure ⟨c.offset, operandLabels, false⟩ := by
  rw [expression_succ]
  simp [chainLeft, operand_of_miss h]

/-- Elsewhere a declaration fails before it gets to any expression. -/
theorem declaration_of_not_mayDeclare (h : ¬ MayDeclare c.rest) (hDepth : 0 < d) :
    ∃ reason, declaration.step d c = .failure reason := by
  by_cases hKeyword : ∃ mid, (Token.word "let".toList).Read c.rest mid
  · obtain ⟨afterLet, hLet⟩ := hKeyword
    by_cases hStart : ∀ x ∈ afterLet.head?, isNameStart x = false
    · exact ⟨_, declaration_of_name_miss hLet hStart⟩
    · obtain ⟨name, afterName, hName⟩ := exists_name hStart
      have hAfter : ¬ AfterName afterName := fun hBad => h ⟨_, _, _, hLet, hName, hBad⟩
      have hColon : afterName.head? ≠ some ':' := fun hBad => hAfter (.inl hBad)
      have hSemicolon : afterName.head? ≠ some ';' := fun hBad => hAfter (.inr (.inl hBad))
      have hOperand : ∀ mid, (Token.mark '=').Read afterName mid → ¬ StartsOperand mid :=
        fun mid hMark hBad => hAfter (.inr (.inr ⟨mid, hMark, hBad⟩))
      have hWritten : Written (heading name none) c.rest afterName :=
        .cons hLet (.single hName)
      have hReached : (c.before afterName).rest = afterName := Cursor.rest_before hWritten.suffix
      have hMoved := (Cursor.offset_lt_before hWritten.suffix).mpr (hWritten.length_lt (by simp [heading]))
      have hFails : ∃ reason, initializer.step d (c.before afterName) = .failure reason := by
        by_cases hEquals : afterName.head? = some '='
        · obtain ⟨mid, hMark⟩ := read_mark (c := c.before afterName) (x := '=') (by decide)
            (by rwa [hReached])
          have hMid : ((c.before afterName).before mid).rest = mid := Cursor.rest_before hMark.suffix
          obtain ⟨d, rfl⟩ : ∃ deeper, d = deeper + 1 := ⟨d - 1, by omega⟩
          refine ⟨_, initializer_of_failure (enclosed_of_failure hMark (expression_of_miss ?_)) rfl⟩
          rw [hMid]
          exact hOperand mid (by rwa [hReached] at hMark)
        · exact ⟨_, initializer_of_miss (by rwa [hReached]) (by rwa [hReached])⟩
      obtain ⟨reason, hReason⟩ := hFails
      exact ⟨_, declaration_of_initializer_failure (heading_of_written hWritten fun _ => hColon)
        hReason hMoved⟩
  · exact ⟨_, declaration_of_keyword_miss fun mid hRead => hKeyword ⟨mid, hRead⟩⟩

/-- A text that begins with a word does not begin with any other token. -/
theorem Token.Read.eq_word {t : Token} {name : List Char} (h : t.Read text mid)
    (hWord : (Token.word name).Read text rest) : t = .word name ∧ mid = rest := by
  obtain ⟨x, hx, hStart⟩ := hWord.head_word
  rw [h.head?] at hx
  have hValid := h.valid
  cases t with
  | digits run =>
      have hDigit : x.isDigit = true := hValid.2 x (List.mem_of_mem_head? hx)
      rw [(isNameStart_distinct hStart).1] at hDigit
      exact absurd hDigit (by decide)
  | pointed whole fraction =>
      cases whole with
      | nil => exact absurd rfl hValid.1.1
      | cons y whole =>
          obtain rfl : y = x := Option.some.inj hx
          have hDigit : y.isDigit = true := hValid.1.2 y List.mem_cons_self
          rw [(isNameStart_distinct hStart).1] at hDigit
          exact absurd hDigit (by decide)
  | quotation body =>
      obtain rfl : '"' = x := Option.some.inj hx
      exact absurd rfl (isNameStart_distinct hStart).2.1
  | word other =>
      obtain ⟨rfl, rfl⟩ := h.word_unique hWord
      exact ⟨rfl, rfl⟩
  | operator op =>
      exact absurd (.inr (.inr (.inr hStart)))
        (not_operand_of_operator (List.mem_of_mem_head? hx))
  | mark y =>
      have hMarks : ∀ y ∈ marks, (!isNameStart y) = true := List.all_eq_true.mp (by decide)
      obtain rfl : y = x := Option.some.inj hx
      have hNone := hMarks y hValid
      rw [hStart] at hNone
      exact absurd hNone (by decide)

theorem not_afterName_nil : ¬ AfterName [] := by
  rintro (hColon | hSemicolon | ⟨mid, hMark, _⟩)
  · exact absurd hColon (by decide)
  · exact absurd hSemicolon (by decide)
  · exact absurd hMark.head? (by decide)

theorem StartsOperand.not_afterName (h : StartsOperand text) : ¬ AfterName text := by
  rintro (hColon | hSemicolon | ⟨mid, hMark, _⟩)
  · exact h.head_ne (by decide) hColon
  · exact h.head_ne (by decide) hSemicolon
  · exact h.head_ne (by decide) hMark.head?

/-- An operator is not taken for the equals sign of a declaration: what is left
of the longer one begins no operand. -/
theorem not_afterName_of_operator {op : Operator} (h : (Token.operator op).Read text rest) :
    ¬ AfterName text := by
  have hHeads : ∀ op ∈ operatorOrder,
      op.symbol.toList.head? ≠ some ':' ∧ op.symbol.toList.head? ≠ some ';' := by decide
  obtain ⟨hNotColon, hNotSemicolon⟩ := hHeads op (mem_operatorOrder op)
  obtain ⟨run, _, hText, _⟩ := h.split
  rintro (hColon | hSemicolon | ⟨mid, hMark, hOperand⟩)
  · exact hNotColon (h.head?.symm.trans hColon)
  · exact hNotSemicolon (h.head?.symm.trans hSemicolon)
  · have hEquals : ∀ op ∈ operatorOrder, op.symbol.toList.head? = some '=' →
        op.symbol.toList = ['=', '='] := by decide
    have hSymbol := hEquals op (mem_operatorOrder op) (h.head?.symm.trans hMark.head?)
    obtain ⟨blanks, hBlanks, hSame, _⟩ := hMark.split
    simp only [Token.text, hSymbol, List.cons_append, List.nil_append] at hText hSame
    rw [hText, List.cons.injEq] at hSame
    cases blanks with
    | nil =>
        refine hOperand.head_ne (x := '=') (by decide) ?_
        rw [← List.nil_append mid, ← hSame.2]
        rfl
    | cons x blanks =>
        obtain ⟨rfl, _⟩ := List.cons.inj hSame.2
        exact absurd (hBlanks '=' List.mem_cons_self) (by decide)

/-- An expression does not begin like a declaration, unless it is the word for
declarations by itself and the text after it goes on like one. -/
theorem not_mayDeclare_of_spelling {e : Expr} (h : e.Spelling ts) (hWritten : Written ts text mid)
    (hAlone : ts = [.word "let".toList] → ∀ name afterName, (Token.word name).Read mid afterName →
      ¬ AfterName afterName) : ¬ MayDeclare text := by
  rintro ⟨name, afterLet, afterName, hLet, hName, hAfter⟩
  cases hWritten with
  | nil => exact absurd rfl h.ne_nil
  | cons hFirst hOthers =>
      obtain ⟨rfl, rfl⟩ := hFirst.eq_word hLet
      rcases h.after_word rfl with rfl | ⟨op, vs, rfl⟩
      · cases hOthers with
        | nil => exact hAlone rfl name afterName hName hAfter
      · cases hOthers with
        | cons hOperator _ => exact absurd (hOperator.eq_word hName).1 Token.noConfusion

/-! What a statement does. -/

theorem statement_of_declaration {v : Variable} {next : Cursor}
    (h : declaration.step d c = .success v next) :
    statement.step d c = .success (.declaration v) next := by
  simp [statement, orElse_step, choice, attempt, map_step, h, Outcome.map]

theorem statement_of_declaration_halted {cause : Halt} (h : declaration.step d c = .halted cause) :
    statement.step d c = .halted cause := by
  simp [statement, orElse_step, choice, attempt, map_step, h, Outcome.map]

section Fallback

variable {reason : Failure} (hDeclaration : declaration.step d c = .failure reason)

include hDeclaration

theorem statement_of_expression {e : Expr} {next : Cursor}
    (h : expression.step d c = .success e next) :
    statement.step d c = .success (.expression e) next := by
  simp [statement, orElse_step, choice, tryEach, attempt, map_step, hDeclaration, h, Outcome.map]

/-- What the declaration got to is forgotten once the expression has begun. -/
theorem statement_of_committed {other : Failure} (h : expression.step d c = .failure other)
    (hCommitted : other.consumed = true) : statement.step d c = .failure other := by
  simp [statement, orElse_step, choice, tryEach, attempt, map_step, hDeclaration, h, hCommitted,
    Outcome.map]

theorem statement_of_expression_halted {cause : Halt} (h : expression.step d c = .halted cause) :
    statement.step d c = .halted cause := by
  simp [statement, orElse_step, choice, tryEach, attempt, map_step, hDeclaration, h, Outcome.map]

end Fallback

/-- A spelled expression is read back where no declaration can begin. -/
theorem statement_of_spelling {e : Expr} (hSpelling : e.Spelling ts) (hForm : e.WellFormed)
    (hNesting : e.nesting < d) (hWritten : Written ts c.rest rest) (hEnd : NoOperator rest)
    (hNone : ¬ MayDeclare c.rest) :
    statement.step d c = .success (.expression e) (c.before rest) := by
  obtain ⟨reason, hReason⟩ := declaration_of_not_mayDeclare hNone
    (Nat.lt_of_le_of_lt (Nat.zero_le _) hNesting)
  exact statement_of_expression hReason
    (expression_of_spelling hSpelling hForm hNesting hWritten hEnd)

/-- What a statement may be, as a failure to find one tells it. -/
def statementLabels : Labels := (Labels.single (Text.quoted "let")).union operandLabels

theorem statement_of_miss (h : ¬ StartsOperand c.rest) :
    statement.step (d + 1) c = .failure ⟨c.offset, statementLabels, false⟩ := by
  have hDeclaration := declaration_of_keyword_miss (d := d + 1) fun _ hLet =>
    h (startsOperand_of_word hLet)
  simp [statement, orElse_step, choice, tryEach, attempt, map_step, hDeclaration,
    expression_of_miss h, Outcome.map, Failure.here, Failure.merge_same, statementLabels]

/-- What has been read of a statement when it goes wrong. Declarations do not
occur here, since an expression is tried in their place. -/
inductive StatementStuck (d : Nat) : Nat → List Token → List Char → List Char → Labels → Prop where
  | start {mid : List Char} (hMiss : ¬ StartsOperand mid) :
      StatementStuck d 0 [] mid mid statementLabels
  | expression {k : Nat} {ts : List Token} {mid rest : List Char} {labels : Labels}
      (h : Stuck d k ts mid rest labels) : StatementStuck d k ts mid rest labels

theorem StatementStuck.suffix (h : StatementStuck d k ts mid rest labels) : rest <:+ mid := by
  cases h with
  | start => exact List.suffix_refl _
  | expression h => exact h.suffix

/-- What has been read of a statement when the groups open in it have used up
the depth. -/
inductive StatementExhausted (d : Nat) : List Token → Prop where
  | declaration {name : String} {type : Option TypeName} {ts : List Token} (h : Opening d d ts) :
      StatementExhausted d (heading name type ++ .mark '=' :: ts)
  | expression {ts : List Token} (h : Opening d d ts) : StatementExhausted d ts

/-- What a parser of statements can do at a place with a given depth left. An
expression is found only where no declaration is. -/
inductive StatementOutcome (d : Nat) (c : Cursor) : Outcome Stmt → Prop where
  | declaration {v : Variable} {ts : List Token} {rest : List Char} (hSpelling : v.Spelling ts)
      (hForm : v.WellFormed) (hNesting : ∀ e ∈ v.initializer, e.nesting < d)
      (hWritten : Written ts c.rest rest) :
      StatementOutcome d c (.success (.declaration v) (c.before rest))
  | expression {e : Expr} {ts : List Token} {rest : List Char} (hSpelling : e.Spelling ts)
      (hForm : e.WellFormed) (hNesting : e.nesting < d) (hWritten : Written ts c.rest rest)
      (hEnd : NoOperator rest) (hNone : ∀ v next, declaration.step d c ≠ .success v next) :
      StatementOutcome d c (.success (.expression e) (c.before rest))
  | failure {k : Nat} {ts : List Token} {mid rest : List Char} {labels : Labels}
      (hStuck : StatementStuck d k ts mid rest labels) (hWritten : Written ts c.rest mid) :
      StatementOutcome d c (.failure
        ⟨(c.before rest).offset, labels, decide (rest.length < c.rest.length)⟩)
  | tooDeep {ts : List Token} {mid : List Char} (hExhausted : StatementExhausted d ts)
      (hWritten : Written ts c.rest mid) : StatementOutcome d c (.halted .tooDeep)

/-- An expression that has begun fails behind its first character. -/
theorem Stuck.length_lt (h : Stuck d k ts mid rest labels) (hWritten : Written ts text mid)
    (hStart : StartsOperand text) : rest.length < text.length := by
  cases h with
  | operand _ hMiss =>
      cases hWritten with
      | nil => exact absurd hStart hMiss
      | cons hFirst hOthers => exact (Written.cons hFirst hOthers).length_lt (by simp)
  | quote => exact Nat.lt_of_lt_of_le (by simp) hWritten.suffix.length_le
  | close => exact hWritten.length_lt (by simp)

/-- Everything that can become of a statement. -/
theorem statement_outcome (d : Nat) (c : Cursor) : StatementOutcome d c (statement.step d c) := by
  have hFirst := declaration_outcome d c
  generalize hDeclaration : declaration.step d c = outcome at hFirst
  cases hFirst with
  | success hSpelling hForm hNesting hWritten =>
      rw [statement_of_declaration hDeclaration]
      exact .declaration hSpelling hForm hNesting hWritten
  | tooDeep hOpening hWritten =>
      rw [statement_of_declaration_halted hDeclaration]
      exact .tooDeep (.declaration hOpening) hWritten
  | failure =>
      have hSecond := expression_outcome d c
      generalize hExpression : expression.step d c = outcome at hSecond
      cases hSecond with
      | success hSpelling hForm hNesting hWritten hEnd =>
          rw [statement_of_expression hDeclaration hExpression]
          refine .expression hSpelling hForm hNesting hWritten hEnd fun v next hBad => ?_
          rw [hDeclaration] at hBad
          cases hBad
      | tooDeep hOpening hWritten =>
          rw [statement_of_expression_halted hDeclaration hExpression]
          exact .tooDeep (.expression hOpening) hWritten
      | @failure k ts mid rest labels hStuck hWritten =>
          by_cases hStart : StartsOperand c.rest
          · have hMoved := hStuck.length_lt hWritten hStart
            rw [statement_of_committed hDeclaration hExpression (by simpa using hMoved)]
            exact .failure (.expression hStuck) hWritten
          · cases d with
            | zero =>
                rw [expression_zero] at hExpression
                cases hExpression
            | succ d =>
                rw [statement_of_miss hStart]
                have hMiss := StatementOutcome.failure (d := d + 1) (c := c) (.start hStart) (.nil c.rest)
                simpa using hMiss

end Grammar

end Scriptlet
