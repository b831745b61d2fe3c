import Scriptlet.Proofs.Entry
import Scriptlet.Proofs.Grammar.Ending

namespace Scriptlet

open Grammar Scriptlet.Parser

variable {limit : Nat} {filename : String} {ts : List Token}

/-! What a source is as one entry, it is as another one. -/

theorem sentence_declaration_iff {v : Variable} :
    Sentence limit filename .declaration ts (.declared v) ↔
      Sentence limit filename .statement ts (.stmt (.declaration v)) := by
  constructor
  · intro h
    cases h with
    | declaration h hForm hNesting => exact .declared h hForm hNesting
  · intro h
    cases h with
    | declared h hForm hNesting => exact .declaration h hForm hNesting

theorem sentence_expression_iff {e : Expr} :
    Sentence limit filename .expression ts (.expr e) ↔
      Sentence limit filename .statement ts (.stmt (.expression e)) := by
  constructor
  · intro h
    cases h with
    | expression h hForm hNesting => exact .bare h hForm hNesting
  · intro h
    cases h with
    | bare h hForm hNesting => exact .expression h hForm hNesting

/-- A program of one statement. -/
theorem sentence_program_of_piece (p : Piece) (hWithin : p.Within limit) :
    Sentence limit filename .program p.tokens (.program ⟨[p.stmt], filename⟩) := by
  have hProgram : Sentence limit filename .program _ _ :=
    .program (List.forall_mem_singleton.mpr hWithin) (.singleton p)
  simpa using hProgram

theorem sentence_program_of_statement {s : Stmt}
    (h : Sentence limit filename .statement ts (.stmt s)) :
    Sentence limit filename .program ts (.program ⟨[s], filename⟩) := by
  cases h with
  | @declared v ts h hForm hNesting =>
      exact sentence_program_of_piece ⟨.declaration v, ts, .declaration h, hForm⟩ hNesting
  | @bare e ts h hForm hNesting =>
      apply sentence_program_of_piece ⟨.expression e, ts, .bare h, hForm⟩
      intro inner hInner
      obtain rfl := Option.some.inj hInner
      exact hNesting

/-- A program of one statement is that statement, or an expression in front of
a semicolon. -/
theorem statement_of_sentence_program {s : Stmt}
    (h : Sentence limit filename .program ts (.program ⟨[s], filename⟩)) :
    Sentence limit filename .statement ts (.stmt s) ∨
      ∃ (e : Expr) (us : List Token), s = .expression e ∧ e.Spelling us ∧ e.WellFormed ∧
        e.nesting < limit ∧ ts = us ++ [.semicolon] := by
  generalize hNode : Node.program ⟨[s], filename⟩ = node at h
  cases h with
  | @program pieces hWithin hChain =>
      injection hNode with hNode
      injection hNode with hStatements
      obtain ⟨p, rfl, rfl⟩ := List.map_eq_singleton_iff.mp hStatements.symm
      have hNesting := hWithin p List.mem_cons_self
      obtain ⟨s, us, hSpelling, hForm⟩ := p
      have hTokens : Piece.allTokens [⟨s, us, hSpelling, hForm⟩] = us := by simp
      rw [hTokens]
      cases hSpelling with
      | declaration h => exact .inl (.declared h hForm hNesting)
      | bare h => exact .inl (.bare h hForm (hNesting _ rfl))
      | terminated h => exact .inr ⟨_, _, rfl, h, hForm, hNesting _ rfl, rfl⟩

namespace Source

variable {source : Source} {entry : Entry}

/-- A source is accepted when it is blanks and then the tokens of a sentence. -/
theorem parseWithin_ok_iff {node : Node} :
    source.parseWithin limit entry = .ok node ↔
      ∃ lead text ts, source.text = lead ++ text ∧ IsBlank lead ∧ NoBlank text ∧
        Written ts text [] ∧ Sentence limit source.filename entry ts node := by
  constructor
  · intro h
    obtain ⟨lead, text, hText, hLead, hNoBlank, hOutcome⟩ := exists_parseOutcome h
    cases hOutcome with
    | accepted hSentence hWritten => exact ⟨lead, text, _, hText, hLead, hNoBlank, hWritten, hSentence⟩
  · rintro ⟨lead, text, ts, hText, hLead, hNoBlank, hWritten, hSentence⟩
    exact parseWithin_of_sentence hSentence hText hLead hNoBlank hWritten

/-- Entries with the same sentences accept the same sources. -/
theorem parseWithin_ok_congr {entry other : Entry} {node node' : Node}
    (h : ∀ ts, Sentence limit source.filename entry ts node ↔
      Sentence limit source.filename other ts node') :
    source.parseWithin limit entry = .ok node ↔ source.parseWithin limit other = .ok node' := by
  simp only [parseWithin_ok_iff, h]

/-- An expression in front of a semicolon is read as a statement, and then the
semicolon is too much. -/
theorem statement_before_semicolon {lead text : List Char} {e : Expr} {us : List Token}
    (hText : source.text = lead ++ text) (hLead : IsBlank lead) (hNoBlank : NoBlank text)
    (hSpelling : e.Spelling us) (hForm : e.WellFormed) (hNesting : e.nesting < limit)
    (hWritten : Written (us ++ [.semicolon]) text []) :
    ∃ offset, SemicolonAt source.text offset ∧
      source.parseWithin limit .statement = .error (.rejected
        (.place offset ["end of input"] source.text source.filename none)) := by
  obtain ⟨mid, hExpr, hLast⟩ := written_append hWritten
  have hMark := written_single hLast
  have hSuffix : text <:+ source.text := ⟨lead, hText.symm⟩
  have hMid : mid <:+ source.text := hExpr.suffix.trans hSuffix
  obtain ⟨head, hHead⟩ := hMid
  have hStart : (source.before text).rest = text := rest_before hSuffix
  have hNone : ¬ MayDeclare text := not_mayDeclare_of_spelling hSpelling hExpr
    fun _ name afterName hName => absurd (hMark.eq_word hName).1 Token.noConfusion
  rw [← hStart] at hExpr hNone
  have hStep := statement_of_spelling hSpelling hForm hNesting hExpr
    (noOperator_of_head? hMark.head? (by decide)) hNone
  rw [hStart] at hExpr
  rw [before_before hSuffix hExpr.suffix] at hStep
  have hMore : (source.before mid).rest ≠ [] := by
    rw [rest_before ⟨head, hHead⟩]
    exact List.ne_nil_of_length_pos (Nat.lt_of_le_of_lt (Nat.zero_le _) hMark.length_lt)
  have hOffset : (source.before mid).offset = head.length := by
    rw [offset_before, ← hHead, List.length_append, Nat.add_sub_cancel]
  refine ⟨head.length, hHead ▸ hMark.semicolonAt head, ?_⟩
  rw [parseWithin, whole_of_more (firstToken_of_lead hText hLead hNoBlank) hStep hMore, hOffset]
  rfl

/-- A statement by itself does not end with the semicolon of a program. -/
theorem not_semicolonAt_of_expression {e : Expr} {offset : Nat}
    (h : source.parseWithin limit .statement = .ok (.stmt (.expression e))) :
    ¬ SemicolonAt source.text offset := by
  obtain ⟨lead, text, ts, hText, _, _, hWritten, hSentence⟩ := parseWithin_ok_iff.mp h
  intro hEnd
  rw [hText] at hEnd
  cases hSentence with
  | bare hSpelling => exact hSpelling.last_not_semicolon (hWritten.last_semicolon hSpelling.ne_nil hEnd)

end Source

/-- The entries agree. A source is a declaration exactly if it is a statement
that declares, and an expression exactly if it is a statement that does not; so
it is never both. A statement is a program of one statement. Such a program is a
statement as well, but for an expression with a semicolon, which a statement
does not reach over. -/
theorem entries_agree (limit : Nat) (source : Source) :
    (∀ v, source.parseWithin limit .declaration = .ok (.declared v) ↔
      source.parseWithin limit .statement = .ok (.stmt (.declaration v))) ∧
    (∀ e, source.parseWithin limit .expression = .ok (.expr e) ↔
      source.parseWithin limit .statement = .ok (.stmt (.expression e))) ∧
    (∀ e v, ¬ (source.parseWithin limit .expression = .ok (.expr e) ∧
      source.parseWithin limit .declaration = .ok (.declared v))) ∧
    (∀ s, source.parseWithin limit .statement = .ok (.stmt s) →
      source.parseWithin limit .program = .ok (.program ⟨[s], source.filename⟩)) ∧
    (∀ s, source.parseWithin limit .program = .ok (.program ⟨[s], source.filename⟩) →
      (∀ e offset, s = .expression e → SemicolonAt source.text offset →
        source.parseWithin limit .statement = .error (.rejected
          (.place offset ["end of input"] source.text source.filename none))) ∧
      ((∀ e offset, s = .expression e → ¬ SemicolonAt source.text offset) →
        source.parseWithin limit .statement = .ok (.stmt s))) := by
  have hDeclaration : ∀ v, source.parseWithin limit .declaration = .ok (.declared v) ↔
      source.parseWithin limit .statement = .ok (.stmt (.declaration v)) := fun v =>
    Source.parseWithin_ok_congr fun _ => sentence_declaration_iff
  have hExpression : ∀ e, source.parseWithin limit .expression = .ok (.expr e) ↔
      source.parseWithin limit .statement = .ok (.stmt (.expression e)) := fun e =>
    Source.parseWithin_ok_congr fun _ => sentence_expression_iff
  refine ⟨hDeclaration, hExpression, ?_, ?_, ?_⟩
  · rintro e v ⟨hLeft, hRight⟩
    have hStatement := (hExpression e).mp hLeft
    rw [(hDeclaration v).mp hRight] at hStatement
    cases hStatement
  · intro s h
    obtain ⟨lead, text, ts, hText, hLead, hNoBlank, hWritten, hSentence⟩ :=
      Source.parseWithin_ok_iff.mp h
    exact Source.parseWithin_ok_iff.mpr ⟨lead, text, ts, hText, hLead, hNoBlank, hWritten,
      sentence_program_of_statement hSentence⟩
  · intro s h
    obtain ⟨lead, text, ts, hText, hLead, hNoBlank, hWritten, hSentence⟩ :=
      Source.parseWithin_ok_iff.mp h
    rcases statement_of_sentence_program hSentence with hStatement | hTerminated
    · have hRead : source.parseWithin limit .statement = .ok (.stmt s) :=
        Source.parseWithin_ok_iff.mpr ⟨lead, text, ts, hText, hLead, hNoBlank, hWritten, hStatement⟩
      refine ⟨?_, fun _ => hRead⟩
      rintro e offset rfl hEnd
      exact absurd hEnd (Source.not_semicolonAt_of_expression hRead)
    · obtain ⟨e, us, rfl, hSpelling, hForm, hNesting, rfl⟩ := hTerminated
      obtain ⟨offset, hEnd, hError⟩ := Source.statement_before_semicolon hText hLead hNoBlank
        hSpelling hForm hNesting hWritten
      refine ⟨?_, fun hNone => absurd hEnd (hNone e offset rfl)⟩
      intro _ other _ hOther
      rw [hOther.unique hEnd]
      exact hError

/-- A name is a program of one statement. With a semicolon it is no statement
any more, unlike a declaration. -/
theorem entries_agree_name :
    Source.parseWithin 1 ⟨"<stdin>", "x".toList⟩ .program =
        .ok (.program ⟨[.expression (.var "x")], "<stdin>"⟩) ∧
      Source.parseWithin 1 ⟨"<stdin>", "x; ".toList⟩ .statement = .error (.rejected
        (.place 1 ["end of input"] "x; ".toList "<stdin>" none)) ∧
      Source.parseWithin 1 ⟨"<stdin>", "let x; ".toList⟩ .statement =
        .ok (.stmt (.declaration ⟨"x", none, none⟩)) := by
  obtain ⟨_, _, _, hProgram, _⟩ := entries_agree 1 ⟨"<stdin>", "x".toList⟩
  obtain ⟨_, _, _, _, hTerminated⟩ := entries_agree 1 ⟨"<stdin>", "x; ".toList⟩
  obtain ⟨_, _, _, _, hDeclared⟩ := entries_agree 1 ⟨"<stdin>", "let x; ".toList⟩
  have hEnd : SemicolonAt "x; ".toList 1 := ⟨['x'], [' '], rfl, by decide, rfl⟩
  refine ⟨hProgram (.expression (.var "x")) rfl, ?_, ?_⟩
  · exact (hTerminated (.expression (.var "x")) rfl).1 (.var "x") 1 rfl hEnd
  · exact (hDeclared (.declaration ⟨"x", none, none⟩) rfl).2 fun _ _ h => Stmt.noConfusion h

end Scriptlet
