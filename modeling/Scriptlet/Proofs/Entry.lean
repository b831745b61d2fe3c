import Scriptlet.Proofs.Program

namespace Scriptlet

open Grammar Scriptlet.Parser

/-- The tokens of a whole source, and the tree that they stand for. -/
inductive Sentence (limit : Nat) (filename : String) : Entry → List Token → Node → Prop where
  | program {pieces : List Piece} (hWithin : ∀ p ∈ pieces, p.Within limit)
      (hChain : pieces.IsChain Piece.MayFollow) :
      Sentence limit filename .program (Piece.allTokens pieces)
        (.program ⟨pieces.map Piece.stmt, filename⟩)
  | declared {v : Variable} {ts : List Token} (h : v.Spelling ts) (hForm : v.WellFormed)
      (hNesting : ∀ e ∈ v.initializer, e.nesting < limit) :
      Sentence limit filename .statement ts (.stmt (.declaration v))
  | bare {e : Expr} {ts : List Token} (h : e.Spelling ts) (hForm : e.WellFormed)
      (hNesting : e.nesting < limit) :
      Sentence limit filename .statement ts (.stmt (.expression e))
  | expression {e : Expr} {ts : List Token} (h : e.Spelling ts) (hForm : e.WellFormed)
      (hNesting : e.nesting < limit) : Sentence limit filename .expression ts (.expr e)
  | declaration {v : Variable} {ts : List Token} (h : v.Spelling ts) (hForm : v.WellFormed)
      (hNesting : ∀ e ∈ v.initializer, e.nesting < limit) :
      Sentence limit filename .declaration ts (.declared v)

/-- What has been read of a source when it goes wrong. A source that is one
production may also have something after it. -/
inductive SourceStuck (limit : Nat) (filename : String) :
    Entry → Nat → List Token → List Char → List Char → Labels → Prop where
  | trailing {entry : Entry} {ts : List Token} {node : Node} {mid : List Char}
      (h : Sentence limit filename entry ts node) :
      SourceStuck limit filename entry 0 ts mid mid (.single "end of input")
  | program {pieces : List Piece} {k : Nat} {ts : List Token} {mid rest : List Char} {labels : Labels}
      (hWithin : ∀ p ∈ pieces, p.Within limit) (hChain : pieces.IsChain Piece.MayFollow)
      (h : StatementStuck limit k ts mid rest labels) :
      SourceStuck limit filename .program k (Piece.allTokens pieces ++ ts) mid rest labels
  | statement {k : Nat} {ts : List Token} {mid rest : List Char} {labels : Labels}
      (h : StatementStuck limit k ts mid rest labels) :
      SourceStuck limit filename .statement k ts mid rest labels
  | expression {k : Nat} {ts : List Token} {mid rest : List Char} {labels : Labels}
      (h : Stuck limit k ts mid rest labels) :
      SourceStuck limit filename .expression k ts mid rest labels
  | declaration {k : Nat} {ts : List Token} {mid rest : List Char} {labels : Labels}
      (h : DeclarationStuck limit k ts mid rest labels) :
      SourceStuck limit filename .declaration k ts mid rest labels

/-- What has been read of a source when the groups open in a production have used
up the depth: statements that were over, and the beginning of that production. -/
inductive SourceExhausted (limit : Nat) : Entry → List Token → List Token → Prop where
  | program {pieces : List Piece} {ts : List Token} (h : StatementExhausted limit ts) :
      SourceExhausted limit .program (Piece.allTokens pieces) ts
  | statement {ts : List Token} (h : StatementExhausted limit ts) :
      SourceExhausted limit .statement [] ts
  | expression {ts : List Token} (h : Opening limit limit ts) :
      SourceExhausted limit .expression [] ts
  | declaration {name : String} {type : Option TypeName} {ts : List Token}
      (h : Opening limit limit ts) :
      SourceExhausted limit .declaration [] (heading name type ++ .mark '=' :: ts)

namespace Source

variable {source : Source} {limit : Nat} {lead text mid rest : List Char} {α : Type} {p : Parser α}
  {value : α} {c next : Cursor}

/-- The place in a source where the given text is all that follows. -/
def before (source : Source) (text : List Char) : Cursor := (Cursor.place source.text 0).before text

theorem rest_before (h : text <:+ source.text) : (source.before text).rest = text :=
  Cursor.rest_before h

theorem offset_before : (source.before text).offset = source.text.length - text.length := by
  simp [before, Cursor.offset_before, Cursor.place]

theorem before_before (h : text <:+ source.text) (hRest : rest <:+ text) :
    (source.before text).before rest = source.before rest :=
  Cursor.before_before h hRest

/-- The blanks that a source begins with are passed over. -/
theorem firstToken_of_lead (h : source.text = lead ++ text) (hLead : IsBlank lead)
    (hText : NoBlank text) : source.firstToken limit = .ok (source.before text) := by
  have hBlanks : whitespace.step limit (Cursor.place source.text 0) =
      .success () (source.before text) := whitespace_run h hLead hText
  simp [firstToken, applyWithin, hBlanks, conclude, Except.map]

/-! A source that is one production. -/

section Whole

variable (hFirst : source.firstToken limit = .ok c)

include hFirst

theorem whole_of_end (h : p.step limit c = .success value next) (hEnd : next.rest = []) :
    source.wholeWithin limit p = .ok value := by
  simp [wholeWithin, hFirst, applyWithin, keepLeft_step, keepLeft, h, endOfInput, hEnd, conclude,
    bind, Except.bind, pure, Except.pure]

theorem whole_of_more (h : p.step limit c = .success value next) (hMore : next.rest ≠ []) :
    source.wholeWithin limit p = .error (.rejected
      (.place next.offset (Labels.single "end of input").toList source.text source.filename none)) := by
  obtain ⟨x, others, hRest⟩ := List.exists_cons_of_ne_nil hMore
  simp [wholeWithin, hFirst, applyWithin, keepLeft_step, keepLeft, h, endOfInput, hRest, conclude,
    bind, Except.bind, Failure.later, Failure.here]

theorem whole_of_failure {reason : Failure} (h : p.step limit c = .failure reason) :
    source.wholeWithin limit p = .error (.rejected
      (.place reason.offset reason.expected.toList source.text source.filename none)) := by
  simp [wholeWithin, hFirst, applyWithin, keepLeft_step, keepLeft, h, conclude, bind, Except.bind]

theorem whole_of_tooDeep (h : p.step limit c = .halted .tooDeep) :
    source.wholeWithin limit p = .error (.rejected
      (.place c.offset [] source.text source.filename (some "input is nested too deeply to parse"))) := by
  simp [wholeWithin, hFirst, applyWithin, keepLeft_step, keepLeft, h, conclude, bind, Except.bind]

theorem program_of_statements :
    source.programWithin limit = (source.statements limit (c.rest.length + 1) c []).map
      (⟨·, source.filename⟩) := by
  unfold programWithin
  rw [hFirst]
  simp only [bind, Except.bind]
  cases source.statements limit (c.rest.length + 1) c [] with
  | error fault => rfl
  | ok found => rfl

end Whole

/-- A sentence is read back as its tree, with any blanks in front of it. -/
theorem parseWithin_of_sentence {entry : Entry} {ts : List Token} {node : Node}
    (h : Sentence limit source.filename entry ts node) (hText : source.text = lead ++ text)
    (hLead : IsBlank lead) (hNoBlank : NoBlank text) (hWritten : Written ts text []) :
    source.parseWithin limit entry = .ok node := by
  have hFirst : source.firstToken limit = .ok (source.before text) :=
    firstToken_of_lead hText hLead hNoBlank
  have hSuffix : text <:+ source.text := ⟨lead, hText.symm⟩
  have hStart : (source.before text).rest = text := rest_before hSuffix
  have hEnd : ((source.before text).before []).rest = [] := Cursor.rest_before List.nil_suffix
  rw [← hStart] at hWritten
  cases h with
  | program hWithin hChain =>
      rw [parseWithin, program_of_statements hFirst,
        statements_of_pieces hWithin hChain hWritten (Nat.lt_succ_self _)]
      rfl
  | declared h hForm hNesting =>
      have hDeclared := declaration_of_spelling h hForm hNesting hWritten
      rw [parseWithin, whole_of_end hFirst (statement_of_declaration hDeclared) hEnd]
      rfl
  | bare h hForm hNesting =>
      have hNoDeclaration : ¬ MayDeclare (source.before text).rest :=
        not_mayDeclare_of_spelling h hWritten fun _ _ _ hName =>
          absurd hName.length_lt (Nat.not_lt_zero _)
      have hStatement := statement_of_spelling h hForm hNesting hWritten noOperator_nil hNoDeclaration
      rw [parseWithin, whole_of_end hFirst hStatement hEnd]
      rfl
  | expression h hForm hNesting =>
      have hExpression := expression_of_spelling h hForm hNesting hWritten noOperator_nil
      rw [parseWithin, whole_of_end hFirst hExpression hEnd]
      rfl
  | declaration h hForm hNesting =>
      have hDeclared := declaration_of_spelling h hForm hNesting hWritten
      rw [parseWithin, whole_of_end hFirst hDeclared hEnd]
      rfl

/-- What can become of a source that begins with blanks and then a text. -/
inductive ParseOutcome (limit : Nat) (source : Source) (entry : Entry) (text : List Char) :
    Except Fault Node → Prop where
  | accepted {ts : List Token} {node : Node} (h : Sentence limit source.filename entry ts node)
      (hWritten : Written ts text []) : ParseOutcome limit source entry text (.ok node)
  | rejected {k : Nat} {ts : List Token} {mid rest : List Char} {labels : Labels}
      (h : SourceStuck limit source.filename entry k ts mid rest labels)
      (hWritten : Written ts text mid) (hRest : rest <:+ mid) :
      ParseOutcome limit source entry text (.error (.rejected
        (.place (source.before rest).offset labels.toList source.text source.filename none)))
  | tooDeep {before ts : List Token} {start mid : List Char}
      (h : SourceExhausted limit entry before ts) (hBefore : Written before text start)
      (hWritten : Written ts start mid) : ParseOutcome limit source entry text (.error (.rejected
        (.place (source.before start).offset [] source.text source.filename
          (some "input is nested too deeply to parse"))))

section WholeOutcome

variable {entry : Entry} {ts : List Token} {wrap : α → Node} (hSuffix : text <:+ source.text)
  (hFirst : source.firstToken limit = .ok (source.before text))

include hSuffix hFirst

/-- When a production succeeds, the source either ends there or goes on. -/
theorem outcome_of_success
    (h : p.step limit (source.before text) = .success value ((source.before text).before rest))
    (hWritten : Written ts (source.before text).rest rest)
    (hSentence : Sentence limit source.filename entry ts (wrap value)) :
    ParseOutcome limit source entry text ((source.wholeWithin limit p).map wrap) := by
  rw [rest_before hSuffix] at hWritten
  rw [before_before hSuffix hWritten.suffix] at h
  have hRest : (source.before rest).rest = rest := rest_before (hWritten.suffix.trans hSuffix)
  by_cases hEnd : rest = []
  · subst hEnd
    rw [whole_of_end hFirst h hRest]
    exact .accepted hSentence hWritten
  · rw [whole_of_more hFirst h (by rwa [hRest])]
    exact .rejected (.trailing hSentence) hWritten (List.suffix_refl rest)

theorem outcome_of_failure {k : Nat} {labels : Labels} {consumed : Bool}
    (h : p.step limit (source.before text) =
      .failure ⟨((source.before text).before rest).offset, labels, consumed⟩)
    (hWritten : Written ts (source.before text).rest mid) (hRest : rest <:+ mid)
    (hStuck : SourceStuck limit source.filename entry k ts mid rest labels) :
    ParseOutcome limit source entry text ((source.wholeWithin limit p).map wrap) := by
  rw [rest_before hSuffix] at hWritten
  rw [before_before hSuffix (hRest.trans hWritten.suffix)] at h
  rw [whole_of_failure hFirst h]
  exact .rejected hStuck hWritten hRest

theorem outcome_of_tooDeep (h : p.step limit (source.before text) = .halted .tooDeep)
    (hWritten : Written ts (source.before text).rest mid)
    (hExhausted : SourceExhausted limit entry [] ts) :
    ParseOutcome limit source entry text ((source.wholeWithin limit p).map wrap) := by
  rw [rest_before hSuffix] at hWritten
  rw [whole_of_tooDeep hFirst h]
  exact .tooDeep hExhausted (.nil text) hWritten

end WholeOutcome

/-- Everything that can become of a source. Nothing but a tree or an error of
the text comes out. -/
theorem parseWithin_outcome (entry : Entry) (hText : source.text = lead ++ text)
    (hLead : IsBlank lead) (hNoBlank : NoBlank text) :
    ParseOutcome limit source entry text (source.parseWithin limit entry) := by
  have hFirst : source.firstToken limit = .ok (source.before text) :=
    firstToken_of_lead hText hLead hNoBlank
  have hSuffix : text <:+ source.text := ⟨lead, hText.symm⟩
  cases entry with
  | program =>
      have hLoop := statements_outcome limit source _ (source.before text) [] (Nat.lt_succ_self _)
      rw [parseWithin, program_of_statements hFirst]
      generalize source.statements limit ((source.before text).rest.length + 1) (source.before text) [] =
        result at hLoop
      cases hLoop with
      | success hWithin hChain hWritten =>
          rw [rest_before hSuffix] at hWritten
          exact .accepted (.program hWithin hChain) hWritten
      | failure hWithin hChain hPieces hStuck hWritten =>
          rw [rest_before hSuffix] at hPieces
          have hAll := hPieces.append hWritten
          rw [before_before hSuffix (hStuck.suffix.trans hAll.suffix)]
          exact .rejected (.program hWithin hChain hStuck) hAll hStuck.suffix
      | tooDeep hPieces hExhausted hWritten =>
          rw [rest_before hSuffix] at hPieces
          rw [before_before hSuffix hPieces.suffix]
          exact .tooDeep (.program hExhausted) hPieces hWritten
  | statement =>
      have hOutcome := statement_outcome limit (source.before text)
      generalize hStep : statement.step limit (source.before text) = outcome at hOutcome
      cases hOutcome with
      | declaration hSpelling hForm hNesting hWritten =>
          exact outcome_of_success hSuffix hFirst hStep hWritten (.declared hSpelling hForm hNesting)
      | expression hSpelling hForm hNesting hWritten =>
          exact outcome_of_success hSuffix hFirst hStep hWritten (.bare hSpelling hForm hNesting)
      | failure hStuck hWritten =>
          exact outcome_of_failure hSuffix hFirst hStep hWritten hStuck.suffix (.statement hStuck)
      | tooDeep hExhausted hWritten =>
          exact outcome_of_tooDeep hSuffix hFirst hStep hWritten (.statement hExhausted)
  | expression =>
      have hOutcome := expression_outcome limit (source.before text)
      generalize hStep : expression.step limit (source.before text) = outcome at hOutcome
      cases hOutcome with
      | success hSpelling hForm hNesting hWritten =>
          exact outcome_of_success hSuffix hFirst hStep hWritten (.expression hSpelling hForm hNesting)
      | failure hStuck hWritten =>
          exact outcome_of_failure hSuffix hFirst hStep hWritten hStuck.suffix (.expression hStuck)
      | tooDeep hOpening hWritten =>
          exact outcome_of_tooDeep hSuffix hFirst hStep hWritten (.expression hOpening)
  | declaration =>
      have hOutcome := declaration_outcome limit (source.before text)
      generalize hStep : declaration.step limit (source.before text) = outcome at hOutcome
      cases hOutcome with
      | success hSpelling hForm hNesting hWritten =>
          exact outcome_of_success hSuffix hFirst hStep hWritten (.declaration hSpelling hForm hNesting)
      | failure hStuck hWritten =>
          exact outcome_of_failure hSuffix hFirst hStep hWritten hStuck.suffix (.declaration hStuck)
      | tooDeep hOpening hWritten =>
          exact outcome_of_tooDeep hSuffix hFirst hStep hWritten (.declaration hOpening)

/-- A source is blanks and then a text, from which all is told that becomes of it. -/
theorem exists_parseOutcome {entry : Entry} {result : Except Fault Node}
    (h : source.parseWithin limit entry = result) :
    ∃ lead text, source.text = lead ++ text ∧ IsBlank lead ∧ NoBlank text ∧
      ParseOutcome limit source entry text result := by
  obtain ⟨lead, text, hText, hLead, hNoBlank⟩ := exists_run isBlank source.text
  exact ⟨lead, text, hText, hLead, hNoBlank, h ▸ parseWithin_outcome entry hText hLead hNoBlank⟩

end Source

end Scriptlet
