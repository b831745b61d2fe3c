import Scriptlet.Proofs.Grammar.Operand

namespace Scriptlet.Grammar

open Scriptlet.Parser

variable {d k : Nat} {c : Cursor} {mid rest : List Char} {ts us : List Token} {labels : Labels}

/-! Entering an expression. -/

theorem operand_congr {p q : Parser Expr} (h : ∀ c, p.step d c = q.step d c) :
    (operand p).step d c = (operand q).step d c := by
  simp [operand, choice, tryEach, group, map_step, between, h]

theorem chainRounds_congr {p q : Parser Expr} {operator : Parser (Expr → Expr → Expr)}
    (h : ∀ c, p.step d c = q.step d c) (start : Cursor) (rounds : List Char) (c : Cursor)
    (left : Expr) :
    chainRounds p operator d start rounds c left = chainRounds q operator d start rounds c left := by
  induction rounds generalizing c left with
  | nil =>
      unfold chainRounds
      simp only [h]
  | cons _ rounds ih =>
      unfold chainRounds
      simp only [h, ih]

theorem chainLeft_congr {p q : Parser Expr} {operator : Parser (Expr → Expr → Expr)}
    (h : ∀ c, p.step d c = q.step d c) :
    (chainLeft p operator).step d c = (chainLeft q operator).step d c := by
  simp only [chainLeft, h, chainRounds_congr h]

theorem expression_zero : expression.step 0 c = .halted .tooDeep := rfl

/-- Entering an expression uses up one unit of depth. -/
theorem expression_succ :
    expression.step (d + 1) c =
      (chainLeft (operand expression) (Expr.operation <$> operator)).step d c := by
  have hSame : ∀ c, (operand (selfReference "expression"
      (fun inner => chainLeft (operand inner) (Expr.operation <$> operator)) d)).step d c =
      (operand expression).step d c := fun _ => operand_congr fun _ => rfl
  exact chainLeft_congr hSame

/-! Beginnings of expressions. -/

/-- The tokens of one group after which an operand is due: none, or a whole
expression and an operator. Nesting stays below the depth `d`. -/
inductive Due (d : Nat) : List Token → Prop where
  | start : Due d []
  | operator {left : Expr} {ts : List Token} {op : Operator} (hSpelling : left.Spelling ts)
      (hForm : left.WellFormed) (hNesting : left.nesting < d) : Due d (ts ++ [.operator op])

/-- The tokens of an expression after which an operand is due, with a number
of groups open. -/
inductive Opening : Nat → Nat → List Token → Prop where
  | here {d : Nat} {ts : List Token} (hDue : Due d ts) : Opening d 0 ts
  | group {d k : Nat} {ts us : List Token} (hDue : Due (d + 1) ts) (inner : Opening d k us) :
      Opening (d + 1) (k + 1) (ts ++ .openParen :: us)

/-- What has been read of an expression when it goes wrong, with the number of
open groups, the text that follows, the place of the failure and what had been
expected there. An open string fails at the end, everything else in place. -/
inductive Stuck (d : Nat) : Nat → List Token → List Char → List Char → Labels → Prop where
  | operand {k : Nat} {ts : List Token} {mid : List Char} (hOpening : Opening d k ts)
      (hMiss : ¬ StartsOperand mid) : Stuck d k ts mid mid operandLabels
  | quote {k : Nat} {ts : List Token} {body : List Char} (hOpening : Opening d k ts)
      (hBody : '"' ∉ body) :
      Stuck d k ts ('"' :: body) [] (.single (Text.quoted (String.singleton '"')))
  | close {k : Nat} {ts us : List Token} {e : Expr} {mid : List Char} (hOpening : Opening d k ts)
      (hSpelling : e.Spelling us) (hForm : e.WellFormed) (hNesting : k + 1 + e.nesting < d)
      (hEnd : NoOperator mid) (hMiss : mid.head? ≠ some ')') :
      Stuck d (k + 1) (ts ++ .openParen :: us) mid mid
        (.single (Text.quoted (String.singleton ')')))

theorem Stuck.suffix (h : Stuck d k ts mid rest labels) : rest <:+ mid := by
  cases h with
  | operand | close => exact List.suffix_refl _
  | quote => exact List.nil_suffix

theorem Stuck.group {due : List Token} (hDue : Due (d + 1) due) (h : Stuck d k ts mid rest labels) :
    Stuck (d + 1) (k + 1) (due ++ .openParen :: ts) mid rest labels := by
  cases h with
  | operand hOpening hMiss => exact .operand (.group hDue hOpening) hMiss
  | quote hOpening hBody => exact .quote (.group hDue hOpening) hBody
  | close hOpening hSpelling hForm hNesting hEnd hMiss =>
      have hDeeper := Stuck.close (.group hDue hOpening) hSpelling hForm (by omega) hEnd hMiss
      simpa using hDeeper

/-- What a parser of expressions can do at a place with a given depth left.
This is all that the rest of the theory knows about expressions. -/
inductive ExprOutcome (d : Nat) (c : Cursor) : Outcome Expr → Prop where
  | success {e : Expr} {ts : List Token} {rest : List Char} (hSpelling : e.Spelling ts)
      (hForm : e.WellFormed) (hNesting : e.nesting < d) (hWritten : Written ts c.rest rest)
      (hEnd : NoOperator rest) : ExprOutcome d c (.success e (c.before rest))
  | failure {k : Nat} {ts : List Token} {mid rest : List Char} {labels : Labels}
      (hStuck : Stuck d k ts mid rest labels) (hWritten : Written ts c.rest mid) :
      ExprOutcome d c (.failure
        ⟨(c.before rest).offset, labels, decide (rest.length < c.rest.length)⟩)
  | tooDeep {ts : List Token} {mid : List Char} (hOpening : Opening d d ts)
      (hWritten : Written ts c.rest mid) : ExprOutcome d c (.halted .tooDeep)

/-- What a parser of operands can do when the expressions in it have a given
depth left. What went wrong is said for an operand after any tokens after which
one is due. -/
inductive OperandOutcome (d : Nat) (c : Cursor) : Outcome Expr → Prop where
  | success {e : Expr} {ts : List Token} {rest : List Char} (hSpelling : e.Spelling ts)
      (hForm : e.WellFormed) (hNesting : e.nesting ≤ d) (hOperand : e.isOperation = false)
      (hWritten : Written ts c.rest rest) : OperandOutcome d c (.success e (c.before rest))
  | failure {k : Nat} {ts : List Token} {mid rest : List Char} {labels : Labels}
      (hStuck : ∀ due, Due (d + 1) due → Stuck (d + 1) k (due ++ ts) mid rest labels)
      (hWritten : Written ts c.rest mid) :
      OperandOutcome d c (.failure
        ⟨(c.before rest).offset, labels, decide (rest.length < c.rest.length)⟩)
  | tooDeep {ts : List Token} {mid : List Char}
      (hOpening : ∀ due, Due (d + 1) due → Opening (d + 1) (d + 1) (due ++ ts))
      (hWritten : Written ts c.rest mid) : OperandOutcome d c (.halted .tooDeep)

theorem OperandOutcome.of_literal {value : Literal} {t : Token} {inner : Parser Expr}
    (hSpelling : value.Spelling t) (hForm : value.WellFormed) (h : t.Read c.rest rest) :
    OperandOutcome d c ((operand inner).step d c) := by
  rw [operand_of_literal hSpelling h]
  exact .success (.literal hSpelling) hForm (Nat.zero_le d) rfl (.single h)

/-- A word is a truth value or a variable. -/
theorem operandOutcome_of_word {name : List Char} {inner : Parser Expr}
    (h : (Token.word name).Read c.rest rest) : OperandOutcome d c ((operand inner).step d c) := by
  have hRead : (Token.word (String.ofList name).toList).Read c.rest rest := by
    rwa [String.toList_ofList]
  rw [operand_of_word hRead]
  exact .success (Expr.spelling_ofWord _) (Expr.wellFormed_ofWord hRead.valid)
    (by rw [Expr.nesting_ofWord]; exact Nat.zero_le d) (Expr.isOperation_ofWord _) (.single hRead)

/-- What can become of an expression between two marks, of which the first one
has been read. -/
inductive EnclosedOutcome (d : Nat) (x y : Char) (c : Cursor) : Outcome Expr → Prop where
  | success {e : Expr} {ts : List Token} {rest : List Char} (hSpelling : e.Spelling ts)
      (hForm : e.WellFormed) (hNesting : e.nesting < d)
      (hWritten : Written (.mark x :: (ts ++ [.mark y])) c.rest rest) :
      EnclosedOutcome d x y c (.success e (c.before rest))
  | unclosed {e : Expr} {ts : List Token} {mid : List Char} (hSpelling : e.Spelling ts)
      (hForm : e.WellFormed) (hNesting : e.nesting < d) (hEnd : NoOperator mid)
      (hMiss : mid.head? ≠ some y) (hWritten : Written (.mark x :: ts) c.rest mid) :
      EnclosedOutcome d x y c (.failure
        ⟨(c.before mid).offset, .single (Text.quoted (String.singleton y)), true⟩)
  | failure {k : Nat} {ts : List Token} {mid rest : List Char} {labels : Labels}
      (hStuck : Stuck d k ts mid rest labels) (hWritten : Written (.mark x :: ts) c.rest mid)
      (hMoved : rest.length < c.rest.length) :
      EnclosedOutcome d x y c (.failure ⟨(c.before rest).offset, labels, true⟩)
  | tooDeep {ts : List Token} {mid : List Char} (hOpening : Opening d d ts)
      (hWritten : Written (.mark x :: ts) c.rest mid) :
      EnclosedOutcome d x y c (.halted .tooDeep)

theorem enclosed_outcome {x y : Char} (hy : y ∈ marks) (hOpen : (Token.mark x).Read c.rest mid)
    (hInner : ExprOutcome d (c.before mid) (expression.step d (c.before mid))) :
    EnclosedOutcome d x y c ((between (symbol x) (symbol y) expression).step d c) := by
  have hMid : (c.before mid).rest = mid := Cursor.rest_before hOpen.suffix
  generalize hOutcome : expression.step d (c.before mid) = outcome at hInner
  cases hInner with
  | @success e ts rest hSpelling hForm hNesting hWritten hEnd =>
      rw [hMid] at hWritten
      have hRest : rest <:+ c.rest := hWritten.suffix.trans hOpen.suffix
      rw [Cursor.before_before hOpen.suffix hWritten.suffix] at hOutcome
      have hReached : (c.before rest).rest = rest := Cursor.rest_before hRest
      by_cases hClosed : rest.head? = some y
      · obtain ⟨last, hClose⟩ := read_mark (c := c.before rest) hy (by rwa [hReached])
        rw [enclosed_of_success hOpen hOutcome hClose]
        rw [hReached] at hClose
        rw [Cursor.before_before hRest hClose.suffix]
        exact .success hSpelling hForm hNesting (.cons hOpen (hWritten.append (.single hClose)))
      · have hMoved : rest.length < c.rest.length :=
          Nat.lt_of_le_of_lt hWritten.suffix.length_le hOpen.length_lt
        rw [enclosed_of_unclosed hOpen hOutcome (by rwa [hReached])
          ((Cursor.offset_lt_before hRest).mpr hMoved)]
        exact .unclosed hSpelling hForm hNesting hEnd hClosed (.cons hOpen hWritten)
  | @failure k ts last rest labels hStuck hWritten =>
      rw [hMid] at hWritten
      have hRest : rest <:+ mid := hStuck.suffix.trans hWritten.suffix
      rw [enclosed_of_failure hOpen hOutcome, Cursor.before_before hOpen.suffix hRest]
      exact .failure hStuck (.cons hOpen hWritten)
        (Nat.lt_of_le_of_lt hRest.length_le hOpen.length_lt)
  | tooDeep hOpening hWritten =>
      rw [hMid] at hWritten
      rw [enclosed_of_halted hOpen hOutcome]
      exact .tooDeep hOpening (.cons hOpen hWritten)

/-- An open parenthesis, given what can become of the expression inside. -/
theorem operandOutcome_of_openParen (hOpen : Token.openParen.Read c.rest mid)
    (hInner : ExprOutcome d (c.before mid) (expression.step d (c.before mid))) :
    OperandOutcome d c ((operand expression).step d c) := by
  have hGroup : EnclosedOutcome d '(' ')' c ((between openParen closeParen expression).step d c) :=
    enclosed_outcome (by decide) hOpen hInner
  generalize hOutcome : (between openParen closeParen expression).step d c = outcome at hGroup
  cases hGroup with
  | success hSpelling hForm hNesting hWritten =>
      rw [operand_of_group hOpen hOutcome]
      exact .success (.parens hSpelling) hForm hNesting rfl hWritten
  | unclosed hSpelling hForm hNesting hEnd hMiss hWritten =>
      rw [operand_of_group_failure hOpen hOutcome rfl]
      have hStuck := OperandOutcome.failure (d := d) (c := c)
        (fun due hDue => Stuck.close (.here hDue) hSpelling hForm (by omega) hEnd hMiss) hWritten
      simpa [hWritten.length_lt (List.cons_ne_nil _ _)] using hStuck
  | failure hStuck hWritten hMoved =>
      rw [operand_of_group_failure hOpen hOutcome rfl]
      have hLater := OperandOutcome.failure (d := d) (c := c)
        (fun due hDue => hStuck.group hDue) hWritten
      simpa [hMoved] using hLater
  | tooDeep hOpening hWritten =>
      rw [operand_of_group_halted hOpen hOutcome]
      exact .tooDeep (fun due hDue => .group hDue hOpening) hWritten

theorem operand_outcome (hInner : ∀ c, ExprOutcome d c (expression.step d c)) (c : Cursor) :
    OperandOutcome d c ((operand expression).step d c) := by
  by_cases hStart : StartsOperand c.rest
  · obtain ⟨x, hx, hKind⟩ := hStart
    obtain ⟨text, hText⟩ := List.head?_eq_some_iff.mp hx
    rcases hKind with hDigit | rfl | rfl | hName
    · rcases read_number hDigit text with ⟨run, rest, hRead⟩ | ⟨whole, fraction, rest, hRead⟩
      · rw [← hText] at hRead
        exact .of_literal (.int hRead.valid) trivial hRead
      · rw [← hText] at hRead
        have hValid : IsDigits whole ∧ ∀ x ∈ fraction, x.isDigit = true := hRead.valid
        exact .of_literal (.float hValid.1 hValid.2) ⟨whole, fraction, hValid.1, hValid.2, rfl⟩ hRead
    · rcases read_quotation text with ⟨body, rest, hRead⟩ | hOpen
      · rw [← hText] at hRead
        have hBody : (String.ofList body).toList = body := String.toList_ofList
        have hValid : '"' ∉ body := hRead.valid
        rw [← hBody] at hRead hValid
        exact .of_literal (.string (String.ofList body)) hValid hRead
      · rw [operand_of_open hText hOpen]
        have hStuck := OperandOutcome.failure (d := d) (c := c)
          (fun due hDue => (List.append_nil due).symm ▸ Stuck.quote (.here hDue) hOpen)
          (hText ▸ .nil c.rest)
        simpa [hText] using hStuck
    · obtain ⟨mid, hOpen⟩ := read_mark (by decide : '(' ∈ marks) hx
      exact operandOutcome_of_openParen hOpen (hInner _)
    · obtain ⟨name, rest, hRead⟩ := read_word hName text
      rw [← hText] at hRead
      exact operandOutcome_of_word hRead
  · rw [operand_of_miss hStart]
    have hStuck := OperandOutcome.failure (d := d) (c := c)
      (fun due hDue => (List.append_nil due).symm ▸ Stuck.operand (.here hDue) hStart) (.nil c.rest)
    simpa using hStuck

/-! Chains of operands. -/

theorem chainRounds_end {left : Expr} {start : Cursor} {rounds : List Char} {p : Parser Expr}
    (h : NoOperator c.rest) :
    chainRounds p (Expr.operation <$> operator) d start rounds c left = .success left c := by
  unfold chainRounds
  simp [map_step, operator_of_miss h, Outcome.map, Failure.here]

theorem chainRounds_next {left right : Expr} {start next : Cursor} {op : Operator} {p : Parser Expr}
    {round : Char} {rounds : List Char} (h : (Token.operator op).Read c.rest mid)
    (hRight : p.step d (c.before mid) = .success right next) :
    chainRounds p (Expr.operation <$> operator) d start (round :: rounds) c left =
      chainRounds p (Expr.operation <$> operator) d start rounds next
        (.operation op left right) := by
  conv =>
    lhs
    unfold chainRounds
  simp [map_step, operator_of_read h, Outcome.map, hRight]

theorem chainRounds_failure {left : Expr} {start : Cursor} {op : Operator} {p : Parser Expr}
    {rounds : List Char} {reason : Failure} (h : (Token.operator op).Read c.rest mid)
    (hRight : p.step d (c.before mid) = .failure reason) :
    chainRounds p (Expr.operation <$> operator) d start rounds c left =
      .failure (reason.later start (c.before mid)) := by
  unfold chainRounds
  simp [map_step, operator_of_read h, Outcome.map, hRight]

theorem chainRounds_halted {left : Expr} {start : Cursor} {op : Operator} {p : Parser Expr}
    {rounds : List Char} {cause : Halt} (h : (Token.operator op).Read c.rest mid)
    (hRight : p.step d (c.before mid) = .halted cause) :
    chainRounds p (Expr.operation <$> operator) d start rounds c left = .halted cause := by
  unfold chainRounds
  simp [map_step, operator_of_read h, Outcome.map, hRight]

/-- The invariant of a chain: the tokens from its start to the cursor spell the
value so far. -/
structure Chained (d : Nat) (start c : Cursor) (left : Expr) (ts : List Token) : Prop where
  spelling : left.Spelling ts
  form : left.WellFormed
  nesting : left.nesting ≤ d
  written : Written ts start.rest c.rest
  cursor : start.before c.rest = c

namespace Chained

variable {start : Cursor} {left : Expr} {op : Operator}

theorem success (h : Chained d start c left ts) (hEnd : NoOperator c.rest) :
    ExprOutcome (d + 1) start (.success left c) := by
  have hOutcome := ExprOutcome.success (d := d + 1) h.spelling h.form (Nat.lt_succ_of_le h.nesting)
    h.written hEnd
  rwa [h.cursor] at hOutcome

theorem due (h : Chained d start c left ts) : Due (d + 1) (ts ++ [.operator op]) :=
  .operator h.spelling h.form (Nat.lt_succ_of_le h.nesting)

/-- An operator and an operand make the chain longer. -/
theorem next {right : Expr} (h : Chained d start c left ts)
    (hOperator : (Token.operator op).Read c.rest mid) (hSpelling : right.Spelling us)
    (hForm : right.WellFormed) (hNesting : right.nesting ≤ d) (hAtom : right.isOperation = false)
    (hWritten : Written us mid rest) :
    Chained d start (c.before rest) (.operation op left right) (ts ++ .operator op :: us) := by
  have hRest : rest <:+ c.rest := hWritten.suffix.trans hOperator.suffix
  have hNext : (c.before rest).rest = rest := Cursor.rest_before hRest
  refine ⟨.operation h.spelling hSpelling, ⟨h.form, hForm, hAtom⟩,
    Nat.max_le.mpr ⟨h.nesting, hNesting⟩, ?_, ?_⟩
  · rw [hNext]
    exact h.written.append (.cons hOperator hWritten)
  · rw [hNext, ← Cursor.before_before h.written.suffix hRest, h.cursor]

/-- An operand that goes wrong is reported behind the operator in front of it. -/
theorem failure {p : Parser Expr} {rounds last : List Char} {consumed : Bool}
    (h : Chained d start c left ts) (hOperator : (Token.operator op).Read c.rest mid)
    (hOutcome : p.step d (c.before mid) =
      .failure ⟨((c.before mid).before rest).offset, labels, consumed⟩)
    (hStuck : Stuck (d + 1) k ((ts ++ [.operator op]) ++ us) last rest labels)
    (hWritten : Written us mid last) :
    ExprOutcome (d + 1) start
      (chainRounds p (Expr.operation <$> operator) d start rounds c left) := by
  have hTail : rest <:+ mid := hStuck.suffix.trans hWritten.suffix
  have hSuffix : mid <:+ start.rest := hOperator.suffix.trans h.written.suffix
  have hReached : c.before mid = start.before mid := by
    rw [← Cursor.before_before h.written.suffix hOperator.suffix, h.cursor]
  have hShorter : mid.length < start.rest.length :=
    Nat.lt_of_lt_of_le hOperator.length_lt h.written.suffix.length_le
  have hMoved : rest.length < start.rest.length := Nat.lt_of_le_of_lt hTail.length_le hShorter
  have hCommitted : start.offset < (start.before mid).offset :=
    (Cursor.offset_lt_before hSuffix).mpr hShorter
  have hLater := ExprOutcome.failure (c := start) hStuck
    ((h.written.append (.single hOperator)).append hWritten)
  rw [chainRounds_failure hOperator hOutcome, hReached, Cursor.before_before hSuffix hTail]
  simpa [Failure.later, hCommitted, hMoved] using hLater

end Chained

/-- The rounds of a chain keep the invariant to the end. The characters that
follow bound the rounds, since each operator takes one at least. -/
theorem chainRounds_outcome (hOperand : ∀ c, OperandOutcome d c ((operand expression).step d c))
    (start : Cursor) (rounds : List Char) (c : Cursor) (left : Expr) (ts : List Token)
    (hRounds : c.rest.length ≤ rounds.length) (h : Chained d start c left ts) :
    ExprOutcome (d + 1) start
      (chainRounds (operand expression) (Expr.operation <$> operator) d start rounds c left) := by
  induction rounds generalizing c left ts with
  | nil =>
      have hRest : c.rest = [] := List.length_eq_zero_iff.mp (Nat.le_zero.mp hRounds)
      have hEnd : NoOperator c.rest := hRest ▸ noOperator_nil
      rw [chainRounds_end hEnd]
      exact h.success hEnd
  | cons round rounds ih =>
      by_cases hEnd : NoOperator c.rest
      · rw [chainRounds_end hEnd]
        exact h.success hEnd
      · obtain ⟨op, mid, hOperator⟩ := read_operator hEnd
        have hMid : (c.before mid).rest = mid := Cursor.rest_before hOperator.suffix
        have hRight := hOperand (c.before mid)
        generalize hOutcome : (operand expression).step d (c.before mid) = outcome at hRight
        cases hRight with
        | @success right us rest hSpelling hForm hNesting hAtom hWritten =>
            rw [hMid] at hWritten
            rw [Cursor.before_before hOperator.suffix hWritten.suffix] at hOutcome
            have hNext : (c.before rest).rest = rest :=
              Cursor.rest_before (hWritten.suffix.trans hOperator.suffix)
            have hShorter := hOperator.length_lt
            have hRightShorter := hWritten.suffix.length_le
            simp only [List.length_cons] at hRounds
            rw [chainRounds_next hOperator hOutcome]
            refine ih _ _ _ ?_ (h.next hOperator hSpelling hForm hNesting hAtom hWritten)
            rw [hNext]
            omega
        | failure hStuck hWritten =>
            rw [hMid] at hWritten
            exact h.failure hOperator hOutcome (hStuck _ h.due) hWritten
        | tooDeep hOpening hWritten =>
            rw [hMid] at hWritten
            rw [chainRounds_halted hOperator hOutcome]
            exact .tooDeep (hOpening _ h.due) ((h.written.append (.single hOperator)).append hWritten)

/-- Everything that can become of an expression, at any place and depth. -/
theorem expression_outcome (d : Nat) (c : Cursor) : ExprOutcome d c (expression.step d c) := by
  induction d generalizing c with
  | zero => exact .tooDeep (.here .start) (.nil c.rest)
  | succ d ih =>
      rw [expression_succ]
      have hOperand := operand_outcome ih
      have hFirst := hOperand c
      unfold chainLeft
      generalize hOutcome : (operand expression).step d c = outcome at hFirst
      simp only [hOutcome]
      cases hFirst with
      | @success e ts rest hSpelling hForm hNesting hAtom hWritten =>
          have hRest : (c.before rest).rest = rest := Cursor.rest_before hWritten.suffix
          refine chainRounds_outcome hOperand c _ _ _ ts (Nat.le_refl _) ⟨hSpelling, hForm, hNesting, ?_, ?_⟩
          · rwa [hRest]
          · rw [hRest]
      | failure hStuck hWritten => exact .failure (hStuck [] .start) hWritten
      | tooDeep hOpening hWritten => exact .tooDeep (hOpening [] .start) hWritten

/-! Spelled trees are read back. -/

theorem chainLeft_of_operand {e : Expr} {next : Cursor}
    (h : (operand expression).step d c = .success e next) :
    (chainLeft (operand expression) (Expr.operation <$> operator)).step d c =
      chainRounds (operand expression) (Expr.operation <$> operator) d c next.rest next e := by
  simp [chainLeft, h]

/-- How a tree is read back: as an operand, if it is no operation, and as the
value of a chain that got to its end with enough rounds left for the text that
follows. -/
structure ReadBack (d : Nat) (c : Cursor) (rest : List Char) (e : Expr) : Prop where
  atom : e.isOperation = false → (operand expression).step d c = .success e (c.before rest)
  chain : ∃ rounds : List Char, rest.length ≤ rounds.length ∧
    (chainLeft (operand expression) (Expr.operation <$> operator)).step d c =
      chainRounds (operand expression) (Expr.operation <$> operator) d c rounds
        (c.before rest) e

theorem ReadBack.of_operand {e : Expr} (hRest : rest <:+ c.rest)
    (h : (operand expression).step d c = .success e (c.before rest)) : ReadBack d c rest e := by
  refine ⟨fun _ => h, rest, Nat.le_refl _, ?_⟩
  rw [chainLeft_of_operand h, Cursor.rest_before hRest]

/-- A chain ends where no operator continues it. -/
theorem ReadBack.finish {e : Expr} (h : ReadBack d c rest e) (hRest : rest <:+ c.rest)
    (hEnd : NoOperator rest) :
    expression.step (d + 1) c = .success e (c.before rest) := by
  obtain ⟨rounds, _, hChain⟩ := h.chain
  rw [expression_succ, hChain]
  exact chainRounds_end (by rwa [Cursor.rest_before hRest])

/-- An operator and a spelled operand take one more round of the chain. -/
theorem ReadBack.longer {left right : Expr} {op : Operator} {last : List Char}
    (hLeft : ReadBack d c mid left) (hMid : mid <:+ c.rest)
    (hOperator : (Token.operator op).Read mid last) (hRest : rest <:+ last)
    (hRight : (operand expression).step d (c.before last) =
      .success right (c.before rest)) :
    ReadBack d c rest (.operation op left right) := by
  have hReached : (c.before mid).rest = mid := Cursor.rest_before hMid
  obtain ⟨rounds, hRounds, hChain⟩ := hLeft.chain
  have hShorter := hOperator.length_lt
  have hRightShorter := hRest.length_le
  refine ⟨fun hAtom => absurd hAtom (by simp [Expr.isOperation]), ?_⟩
  cases rounds with
  | nil =>
      simp only [List.length_nil] at hRounds
      omega
  | cons round rounds =>
      refine ⟨rounds, ?_, ?_⟩
      · simp only [List.length_cons] at hRounds
        omega
      · rw [hChain]
        refine chainRounds_next (by rwa [hReached]) ?_
        rwa [Cursor.before_before hMid hOperator.suffix]

theorem readBack_of_spelling {e : Expr} (hSpelling : e.Spelling ts) (hForm : e.WellFormed)
    (hNesting : e.nesting ≤ d) (hWritten : Written ts c.rest rest) : ReadBack d c rest e := by
  induction hSpelling generalizing d c rest with
  | literal hSpelling =>
      exact .of_operand hWritten.suffix (operand_of_literal hSpelling (written_single hWritten))
  | var name =>
      exact .of_operand hWritten.suffix
        (operand_of_name hForm.2.1 hForm.2.2 (written_single hWritten))
  | @parens inner ts hInner ih =>
      refine .of_operand hWritten.suffix ?_
      cases hWritten with
      | @cons _ _ _ mid _ hOpen hOthers =>
          obtain ⟨last, hInside, hLast⟩ := written_append hOthers
          have hClose := written_single hLast
          have hMid : (c.before mid).rest = mid := Cursor.rest_before hOpen.suffix
          have hSuffix := hInside.suffix.trans hOpen.suffix
          have hReached : (c.before last).rest = last := Cursor.rest_before hSuffix
          have hEnd : NoOperator last := noOperator_of_head? hClose.head? (by decide)
          simp only [Expr.nesting] at hNesting
          obtain ⟨d, rfl⟩ : ∃ deeper, d = deeper + 1 := ⟨d - 1, by omega⟩
          have hBack : ReadBack d (c.before mid) last inner :=
            ih hForm (Nat.le_of_succ_le_succ hNesting) (by rwa [hMid])
          have hExpression := hBack.finish (by rw [hMid]; exact hInside.suffix) hEnd
          rw [Cursor.before_before hOpen.suffix hInside.suffix] at hExpression
          have hGroup : (between openParen closeParen expression).step (d + 1) c =
              .success inner ((c.before last).before rest) :=
            enclosed_of_success hOpen hExpression (by rwa [hReached])
          rw [operand_of_group hOpen hGroup, Cursor.before_before hSuffix hClose.suffix]
  | @operation op left right ts us hLeft hRight ihLeft ihRight =>
      obtain ⟨mid, hLeftWritten, hOthers⟩ := written_append hWritten
      cases hOthers with
      | @cons _ _ _ last _ hOperator hRightWritten =>
          obtain ⟨hLeftNesting, hRightNesting⟩ := Nat.max_le.mp hNesting
          have hSuffix := hOperator.suffix.trans hLeftWritten.suffix
          have hLast : (c.before last).rest = last := Cursor.rest_before hSuffix
          have hRightBack : ReadBack d (c.before last) rest right :=
            ihRight hForm.2.1 hRightNesting (by rwa [hLast])
          have hOperand := hRightBack.atom hForm.2.2
          rw [Cursor.before_before hSuffix hRightWritten.suffix] at hOperand
          exact (ihLeft hForm.1 hLeftNesting hLeftWritten).longer hLeftWritten.suffix hOperator
            hRightWritten.suffix hOperand

/-- A spelled tree is read back from where it is written, up to the place where
no operator continues it. -/
theorem expression_of_spelling {e : Expr} (hSpelling : e.Spelling ts) (hForm : e.WellFormed)
    (hNesting : e.nesting < d) (hWritten : Written ts c.rest rest) (hEnd : NoOperator rest) :
    expression.step d c = .success e (c.before rest) := by
  obtain ⟨d, rfl⟩ : ∃ deeper, d = deeper + 1 := ⟨d - 1, by omega⟩
  have hBack := readBack_of_spelling hSpelling hForm (Nat.le_of_lt_succ hNesting) hWritten
  exact hBack.finish hWritten.suffix hEnd

end Scriptlet.Grammar
