import Mathlib.Data.List.Forall2
import Scriptlet.Proofs.Backtracking.Terminal

namespace Scriptlet

open Scriptlet.Parser

/-- Runs on one text that match alike. How they fail does not matter. -/
def Link.matching : Link where
  cursors := Eq
  failures _ _ := True
  later _ _ _ := trivial

namespace Outcome.Linked

variable {α : Type} {x y z : Outcome α}

theorem symm (h : x.Linked .matching y) : y.Linked .matching x := by
  cases h with
  | success value h => exact .success value (Eq.symm h)
  | failure => exact .failure trivial
  | halted cause => exact .halted cause

theorem trans (h : x.Linked .matching y) (hNext : y.Linked .matching z) : x.Linked .matching z := by
  cases h with
  | success value h =>
      cases hNext with
      | success _ hNext => exact .success value (Eq.trans h hNext)
  | failure =>
      cases hNext with
      | failure => exact .failure trivial
  | halted cause =>
      cases hNext with
      | halted => exact .halted cause

end Outcome.Linked

namespace Parser

variable {α β γ : Type} {d : Nat} {c : Cursor} {p p' : Parser α}

theorem linked_refl (d : Nat) (p : Parser α) : Linked .matching d p p := by
  rintro c c' rfl
  cases p.step d c with
  | success value next => exact .success value rfl
  | failure reason => exact .failure trivial
  | halted cause => exact .halted cause

theorem Linked.success_iff (h : Linked .matching d p p') (value : α) (next : Cursor) :
    p.step d c = .success value next ↔ p'.step d c = .success value next := by
  have hStep := h c c rfl
  generalize p.step d c = outcome, p'.step d c = outcome' at hStep
  cases hStep with
  | success found hNext =>
      obtain rfl := hNext
      rfl
  | failure => simp
  | halted cause => simp

theorem Linked.failure (h : Linked .matching d p p') {reason : Failure}
    (hFailure : p.step d c = .failure reason) : ∃ other, p'.step d c = .failure other := by
  have hStep := h c c rfl
  rw [hFailure] at hStep
  generalize p'.step d c = outcome' at hStep
  cases hStep with
  | failure => exact ⟨_, rfl⟩

theorem attempt_linked (h : Linked .matching d p p') :
    Linked .matching d (attempt p) (attempt p') := by
  rintro c c' rfl
  have hStep := h c c rfl
  simp only [attempt]
  generalize p.step d c = outcome, p'.step d c = outcome' at hStep
  cases hStep with
  | success value hNext => exact .success value hNext
  | failure => exact .failure trivial
  | halted cause => exact .halted cause

theorem Linked.moves (h : Linked .matching d p p') (hMoves : Moves d p) : Moves d p' := by
  intro c value next hSuccess
  exact hMoves c value next ((h.success_iff value next).mpr hSuccess)

/-! Choices. -/

/-- Where the first alternative fails with commitment, the second one does not
match either. -/
def Excludes (d : Nat) (p q : Parser α) : Prop :=
  ∀ c reason, p.step d c = .failure reason → reason.consumed = true →
    ∃ other, q.step d c = .failure other

theorem NeverCommits.excludes (hp : NeverCommits d p) (q : Parser α) : Excludes d p q := by
  intro c reason h hConsumed
  rw [hp c reason h] at hConsumed
  exact absurd hConsumed Bool.false_ne_true

variable {others others' : List (Parser α)}

theorem attempts_miss (h : List.Forall₂ (Linked .matching d) others others')
    (hFail : ∀ q ∈ others, ∃ reason, q.step d c = .failure reason) :
    ∀ q ∈ others'.map attempt, Misses q d c := by
  induction h with
  | nil => simp
  | cons hFirst _ ih =>
      intro q hq
      rcases List.mem_cons.mp hq with rfl | hq
      · obtain ⟨reason, hReason⟩ := hFail _ List.mem_cons_self
        obtain ⟨other, hOther⟩ := hFirst.failure hReason
        exact attempt_misses hOther
      · exact ih (fun r hr => hFail r (List.mem_cons_of_mem _ hr)) q hq

/-- Backtracking goes on where commitment stops, but it finds nothing more when
each alternative excludes the later ones. -/
theorem tryEach_backtracking (h : List.Forall₂ (Linked .matching d) others others')
    (hExcludes : others.Pairwise (Excludes d)) (c : Cursor) (failed failed' : Failure)
    (hFree : failed'.consumed = false) :
    (tryEach d c failed others).Linked .matching (tryEach d c failed' (others'.map attempt)) := by
  induction h generalizing failed failed' with
  | nil => exact .failure trivial
  | @cons p p' others others' hFirst hOthers ih =>
      obtain ⟨hLater, hAmong⟩ := List.pairwise_cons.mp hExcludes
      have hStep := hFirst c c rfl
      simp only [List.map_cons, tryEach, attempt]
      generalize hp : p.step d c = outcome, p'.step d c = outcome' at hStep
      cases hStep with
      | success value hNext => exact .success value hNext
      | halted cause => exact .halted cause
      | @failure reason reason' =>
          have hMerged : (failed'.merge { reason' with consumed := false }).consumed = false :=
            Failure.merge_uncommitted hFree rfl
          cases hConsumed : reason.consumed with
          | false =>
              simp only [hConsumed]
              exact ih hAmong _ _ hMerged
          | true =>
              obtain ⟨all, hAll, _⟩ := tryEach_misses
                (attempts_miss hOthers fun q hq => hLater q hq c reason hp hConsumed) hMerged
              simp only [hConsumed, hAll]
              exact .failure trivial

theorem choose_linked (hFirst : Linked .matching d p p')
    (h : List.Forall₂ (Linked .matching d) others others')
    (hExcludes : (p :: others).Pairwise (Excludes d)) :
    Linked .matching d (choice p others) (Alternation.backtracking.choose p' others') := by
  obtain ⟨hLater, hAmong⟩ := List.pairwise_cons.mp hExcludes
  rintro c c' rfl
  have hStep := hFirst c c rfl
  simp only [Alternation.backtracking, choice, attempt]
  generalize hp : p.step d c = outcome, p'.step d c = outcome' at hStep
  cases hStep with
  | success value hNext => exact .success value hNext
  | halted cause => exact .halted cause
  | @failure reason reason' =>
      cases hConsumed : reason.consumed with
      | false =>
          simp only [hConsumed]
          exact tryEach_backtracking h hAmong c _ _ rfl
      | true =>
          have hFree : Failure.consumed { reason' with consumed := false } = false := rfl
          obtain ⟨all, hAll, _⟩ := tryEach_misses
            (attempts_miss h fun q hq => hLater q hq c reason hp hConsumed) hFree
          simp only [hConsumed, hAll]
          exact .failure trivial

/-! Sequences. -/

/-- What comes after the first of three parts does not depend on it. -/
theorem triple_after {q : Parser β} {r : Parser γ} {first : α} {reached : Cursor}
    (h : p.step d c = .success first reached) :
    ((triple p q r).step d c).Linked .matching
      (((pair q r).step d reached).map fun (second, third) => (first, second, third)) := by
  simp only [triple, pair, h]
  cases q.step d reached with
  | failure reason => exact .failure trivial
  | halted cause => exact .halted cause
  | success second inside =>
      simp only
      cases r.step d inside with
      | failure reason => exact .failure trivial
      | halted cause => exact .halted cause
      | success third next => exact .success _ rfl

theorem linked_triple {q q' : Parser β} {r r' : Parser γ} (p : Parser α)
    (hTail : Linked .matching d (pair q r) (pair q' r')) :
    Linked .matching d (triple p q r) (triple p q' r') := by
  rintro c c' rfl
  cases hFirst : p.step d c with
  | success first reached =>
      have hMapped := (hTail reached reached rfl).map
        fun (second, third) => (first, second, third)
      exact ((triple_after hFirst).trans hMapped).trans (triple_after hFirst).symm
  | failure reason =>
      simp only [triple, pair, hFirst]
      exact .failure trivial
  | halted cause =>
      simp only [triple, pair, hFirst]
      exact .halted cause

end Parser

namespace Grammar

variable {d : Nat} {c : Cursor} {reason : Failure}

/-! Which character a committed failure has seen. -/

theorem stringLiteral_committed (h : stringLiteral.step d c = .failure reason)
    (hConsumed : reason.consumed = true) : c.rest.head? = some '"' := by
  by_contra hHead
  rw [stringLiteral_of_miss hHead] at h
  cases h
  cases hConsumed

theorem group_committed {inner : Parser Expr} (h : (group inner).step d c = .failure reason)
    (hConsumed : reason.consumed = true) : c.rest.head? = some '(' := by
  by_contra hHead
  rw [group_of_miss hHead] at h
  cases h
  cases hConsumed

/-- Of all literals only strings commit. -/
theorem literal_committed (h : literal.step d c = .failure reason)
    (hConsumed : reason.consumed = true) : c.rest.head? = some '"' := by
  by_contra hHead
  have hNumber := recognises_number.hit_or_miss d c
  have hBoolean := recognises_boolean.hit_or_miss d c
  rcases hNumber with ⟨_, _, _, _, _, hNumber⟩ | ⟨_, hNumber⟩
  · simp [literal, choice, hNumber] at h
  · rcases hBoolean with ⟨_, _, _, _, _, hBoolean⟩ | ⟨_, hBoolean⟩
    · simp [literal, choice, tryEach, hNumber, stringLiteral_of_miss hHead, hBoolean, Failure.here] at h
    · simp only [literal, choice, tryEach, hNumber, stringLiteral_of_miss hHead, hBoolean,
        Failure.here, Failure.merge_same] at h
      cases h
      cases hConsumed

/-! Which alternatives exclude each other. -/

theorem boolean_fails (h : c.rest.head? = some '"') : ∃ other, boolean.step d c = .failure other := by
  refine ⟨_, boolean_of_miss fun value rest hRead => ?_⟩
  obtain ⟨x, hx, hStart⟩ := hRead.head_word
  rw [h] at hx
  cases hx
  exact absurd hStart (by decide)

theorem varIdentifier_fails {x : Char} (h : c.rest.head? = some x) (hx : isNameStart x = false) :
    ∃ other, varIdentifier.step d c = .failure other := by
  have hName : identifier.step d c = .failure (.here c "identifier") := by
    apply identifier_of_miss
    intro y hy
    rw [h] at hy
    cases hy
    exact hx
  exact ⟨_, by rw [varIdentifier, map_step, hName]; rfl⟩

theorem literal_excludes (d : Nat) : [number, stringLiteral, boolean].Pairwise (Excludes d) := by
  have hNumber := (recognises_number.neverCommits d).excludes
  have hString : Excludes d stringLiteral boolean := fun c reason h hConsumed =>
    boolean_fails (stringLiteral_committed h hConsumed)
  simp only [List.pairwise_cons, List.forall_mem_cons, List.not_mem_nil, false_implies,
    implies_true, and_true, List.Pairwise.nil]
  exact ⟨⟨hNumber _, hNumber _⟩, hString⟩

theorem operand_excludes (d : Nat) (inner : Parser Expr) :
    [literal, group inner, varIdentifier].Pairwise (Excludes d) := by
  have hGroup : Excludes d literal (group inner) := fun c reason h hConsumed => by
    have hHead : c.rest.head? ≠ some '(' := by
      rw [literal_committed h hConsumed]
      decide
    exact ⟨_, group_of_miss hHead⟩
  have hName : Excludes d literal varIdentifier := fun c reason h hConsumed =>
    varIdentifier_fails (literal_committed h hConsumed) (by decide)
  have hLater : Excludes d (group inner) varIdentifier := fun c reason h hConsumed =>
    varIdentifier_fails (group_committed h hConsumed) (by decide)
  simp only [List.pairwise_cons, List.forall_mem_cons, List.not_mem_nil, false_implies,
    implies_true, and_true, List.Pairwise.nil]
  exact ⟨⟨hGroup, hName⟩, hLater⟩

theorem colon_committed {q : Parser TypeName} (h : (symbol ':' *> q).step d c = .failure reason)
    (hConsumed : reason.consumed = true) : c.rest.head? = some ':' := by
  by_contra hHead
  obtain ⟨other, hOther, hFree⟩ := (misses_here (symbol_of_miss (d := d) hHead)).keepRight q
  rw [hOther] at h
  cases h
  rw [hFree] at hConsumed
  exact absurd hConsumed Bool.false_ne_true

/-- After an equals sign no bare semicolon can follow. -/
theorem initializer_excludes (d : Nat) {value : Parser Expr} :
    Excludes d (some <$> (symbol '=' *> value <* symbol ';')) (symbol ';' *> Parser.pure none) := by
  intro c reason h hConsumed
  have hHead : c.rest.head? = some '=' := by
    by_contra hHead
    have hMiss : Misses (some <$> (symbol '=' *> value <* symbol ';')) d c :=
      (((misses_here (symbol_of_miss hHead)).keepRight value).keepLeft (symbol ';')).map some
    obtain ⟨other, hOther, hFree⟩ := hMiss
    rw [hOther] at h
    cases h
    rw [hFree] at hConsumed
    exact absurd hConsumed Bool.false_ne_true
  have hSemicolon : c.rest.head? ≠ some ';' := by
    rw [hHead]
    decide
  obtain ⟨other, hOther, _⟩ := (misses_here (symbol_of_miss (d := d) hSemicolon)).keepRight
    (Parser.pure (none : Option Expr))
  exact ⟨other, hOther⟩

end Grammar

namespace Alternation

open Grammar

variable {d : Nat} {c : Cursor}

/-! Every production matches alike with commitment and with backtracking. -/

theorem linked_literal (d : Nat) : Linked .matching d Grammar.literal backtracking.literal := by
  rw [literal, number_eq, boolean_eq]
  apply choose_linked
  · exact linked_refl d Grammar.number
  · exact .cons (linked_refl d _) (.cons (linked_refl d _) .nil)
  · exact literal_excludes d

theorem linked_operand {inner inner' : Parser Expr} (h : Linked .matching d inner inner') :
    Linked .matching d (Grammar.operand inner) (backtracking.operand inner') := by
  have hGroup : Linked .matching d (group inner) (group inner') :=
    ((linked_refl d openParen).between (linked_refl d closeParen) h).map _
  rw [operand, varIdentifier, identifier_eq]
  apply choose_linked
  · exact linked_literal d
  · exact .cons hGroup (.cons (linked_refl d _) .nil)
  · exact operand_excludes d inner

/-- By induction on the depth that is left. The levels of the reference only
have to be enough for it. -/
theorem linked_selfReference (d levels : Nat) (h : d ≤ levels) :
    Linked .matching d Grammar.expression
      (selfReference "expression" backtracking.chain levels) := by
  induction d generalizing levels with
  | zero =>
      rintro c c' rfl
      rw [expression_zero]
      cases levels <;> exact .halted .tooDeep
  | succ d ih =>
      obtain ⟨levels, rfl⟩ : ∃ fewer, levels = fewer + 1 := ⟨levels - 1, by omega⟩
      rintro c c' rfl
      have hOperand := linked_operand (ih levels (Nat.le_of_succ_le_succ h))
      have hOperator := linked_refl d (Expr.operation <$> Grammar.operator)
      have hFree := (recognises_operator.neverCommits d).map Expr.operation
      have hMoves := (recognises_operator.moves d).map Expr.operation
      have hChain := Linked.chainLeft hOperand hOperator hFree hFree (moves_operand d)
        (hOperand.moves (moves_operand d)) hMoves hMoves
      rw [← operator_eq] at hChain
      rw [expression_succ, ← operator_eq]
      exact hChain c c rfl

theorem linked_expression (d : Nat) :
    Linked .matching d Grammar.expression backtracking.expression :=
  linked_selfReference d d (Nat.le_refl d)

theorem linked_initializer (d : Nat) :
    Linked .matching d Grammar.initializer backtracking.initializer := by
  have hValue := ((linked_refl d (symbol '=')).keepRight (linked_expression d)).keepLeft
    (linked_refl d (symbol ';'))
  apply choose_linked
  · exact hValue.map some
  · exact .cons (linked_refl d _) .nil
  · exact List.pairwise_pair.mpr (initializer_excludes d)

section Optional

variable {α : Type} {p : Parser α}

theorem optional_of_match {value : α} {next : Cursor} (h : p.step d c = .success value next) :
    (backtracking.optional p).step d c = .success (some value) next := by
  simp [optional, backtracking, choice, attempt, Parser.map, h, Outcome.map]

theorem optional_of_failure {reason : Failure} (h : p.step d c = .failure reason) :
    (backtracking.optional p).step d c = .success none c := by
  simp [optional, backtracking, choice, tryEach, attempt, Parser.map, h, Outcome.map, Parser.pure]

theorem optional_of_halted {cause : Halt} (h : p.step d c = .halted cause) :
    (Parser.optional p).step d c = .halted cause := by
  simp [Parser.optional, choice, Parser.map, h, Outcome.map]

theorem optional_of_halt {cause : Halt} (h : p.step d c = .halted cause) :
    (backtracking.optional p).step d c = .halted cause := by
  simp [optional, backtracking, choice, attempt, Parser.map, h, Outcome.map]

end Optional

/-- A colon without a type is where both differ: backtracking takes it for a
missing annotation. But then no initializer follows. -/
theorem linked_annotated (d : Nat) :
    Linked .matching d (pair Grammar.typeAnnotation Grammar.initializer)
      (pair backtracking.typeAnnotation backtracking.initializer) := by
  rintro c c' rfl
  have hInitializer := linked_initializer d
  rw [ typeAnnotation, typeName_eq, Grammar.typeAnnotation]
  cases hColon : (symbol ':' *> Grammar.typeName).step d c with
  | success type next =>
      apply pair_linked rfl _ hInitializer
      rw [optional_of_success hColon, optional_of_match hColon]
      exact .success _ rfl
  | halted cause =>
      apply pair_linked rfl _ hInitializer
      rw [optional_of_halted hColon, optional_of_halt hColon]
      exact .halted cause
  | failure reason =>
      cases hConsumed : reason.consumed with
      | false =>
          apply pair_linked rfl _ hInitializer
          rw [optional_of_misses ⟨reason, hColon, hConsumed⟩, optional_of_failure hColon]
          exact .success none rfl
      | true =>
          have hHead := colon_committed hColon hConsumed
          have hMiss := initializer_of_miss (d := d) (c := c) (by simp [hHead]) (by simp [hHead])
          obtain ⟨other, hOther⟩ := hInitializer.failure hMiss
          rw [pair_step, pair_step, Parser.optional_of_committed hColon hConsumed,
            optional_of_failure hColon]
          simp only [hOther]
          exact .failure trivial

theorem linked_declaration (d : Nat) :
    Linked .matching d Grammar.declaration backtracking.declaration := by
  rw [declaration, keyword_eq, identifier_eq]
  exact (linked_triple (Grammar.keyword "let" *> Grammar.identifier) (linked_annotated d)).map _

theorem linked_statement (d : Nat) :
    Linked .matching d Grammar.statement backtracking.statement := by
  have hDeclaration : Linked .matching d (attempt (Stmt.declaration <$> Grammar.declaration))
      (attempt (Stmt.declaration <$> backtracking.declaration)) :=
    attempt_linked ((linked_declaration d).map Stmt.declaration)
  apply choose_linked
  · exact hDeclaration
  · exact .cons ((linked_expression d).map Stmt.expression) .nil
  · exact List.pairwise_pair.mpr (neverCommits_attempt.excludes _)

theorem linked_term (d : Nat) : Linked .matching d Grammar.term backtracking.term :=
  linked_operand (linked_expression d)

/-- The loops over the statements find the same, since neither can run out of
rounds. -/
theorem linked_program (limit : Nat) (source : Source) :
    Source.Linked .matching source source Eq (source.programWithin limit)
      (backtracking.program limit source) := by
  obtain ⟨lead, text, hText, hLead, hNoBlank⟩ := exists_run isBlank source.text
  have hFirst : source.firstToken limit = .ok (source.before text) :=
    Source.firstToken_of_lead hText hLead hNoBlank
  have hSeparator : Linked .matching limit Grammar.statementSeparator
      backtracking.statementSeparator := by
    rw [statementSeparator_eq]
    exact linked_refl limit Grammar.statementSeparator
  have hKeeps : Keeps limit backtracking.statementSeparator := by
    rw [statementSeparator_eq]
    exact keeps_separator limit
  have hStatement := linked_statement limit
  have hLoop : Source.Linked .matching source source _ _ _ :=
    Source.statementsBy_linked hStatement hSeparator (moves_statement limit)
      (hStatement.moves (moves_statement limit)) (keeps_separator limit) hKeeps
      (fun c c' hSame => by rw [show c = c' from hSame]) _ _ (source.before text) _ [] [] rfl
      (Nat.lt_succ_self _) (Nat.lt_succ_self _)
  rw [← committed_program, committed.program_of_first hFirst, backtracking.program_of_first hFirst]
  apply hLoop.map
  rintro all all' ⟨later, rfl, rfl⟩
  rfl

end Alternation

/-- Committing to an alternative loses no match, at any depth. Trees and places
are those that backtracking finds, and so are the programs. -/
theorem committed_choice_complete :
    (∀ (limit pos : Nat) (text : List Char) (e : Expr) (next : Cursor),
      Grammar.term.runWithin limit text pos = .success e next ↔
        Alternation.backtracking.term.runWithin limit text pos = .success e next) ∧
    (∀ (limit pos : Nat) (text : List Char) (e : Expr) (next : Cursor),
      Grammar.expression.runWithin limit text pos = .success e next ↔
        Alternation.backtracking.expression.runWithin limit text pos = .success e next) ∧
    (∀ (limit pos : Nat) (text : List Char) (v : Variable) (next : Cursor),
      Grammar.declaration.runWithin limit text pos = .success v next ↔
        Alternation.backtracking.declaration.runWithin limit text pos = .success v next) ∧
    (∀ (limit pos : Nat) (text : List Char) (s : Stmt) (next : Cursor),
      Grammar.statement.runWithin limit text pos = .success s next ↔
        Alternation.backtracking.statement.runWithin limit text pos = .success s next) ∧
    (∀ (limit : Nat) (source : Source) (program : Program),
      source.parseWithin limit .program = .ok (.program program) ↔
        Alternation.backtracking.program limit source = .ok program) := by
  refine ⟨?_, ?_, ?_, ?_, ?_⟩
  · intro limit pos text e next
    exact (Alternation.linked_term limit).success_iff e next
  · intro limit pos text e next
    exact (Alternation.linked_expression limit).success_iff e next
  · intro limit pos text v next
    exact (Alternation.linked_declaration limit).success_iff v next
  · intro limit pos text s next
    exact (Alternation.linked_statement limit).success_iff s next
  · intro limit source program
    have hPrograms := Alternation.linked_program limit source
    rw [Source.parseWithin]
    generalize source.programWithin limit = result,
      Alternation.backtracking.program limit source = result' at hPrograms
    cases hPrograms with
    | ok hSame =>
        obtain rfl := hSame
        simp [Except.map]
    | rejected | tooDeep | halted => simp [Except.map]

end Scriptlet
