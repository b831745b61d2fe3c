import Scriptlet.Proofs.RoundTrip

namespace Scriptlet

open Grammar

/-- Statements that are read from a text cut it into their segments. -/
theorem Segment.exists_of_written {pieces : List Piece} {text : List Char}
    (h : Written (Piece.allTokens pieces) text []) :
    ∃ segments : List Segment, segments.map Segment.toPiece = pieces ∧
      text = Segment.allText segments := by
  induction pieces generalizing text with
  | nil =>
      cases h
      exact ⟨[], rfl, rfl⟩
  | cons p pieces ih =>
      rw [Piece.allTokens_cons] at h
      obtain ⟨mid, hPiece, hOthers⟩ := written_append h
      obtain ⟨segments, rfl, rfl⟩ := ih hOthers
      obtain ⟨head, rfl, hLayout⟩ := hPiece.layout
      exact ⟨⟨p, head, hLayout⟩ :: segments, rfl, rfl⟩

/-- The characters between the two places spell the expression. -/
theorem Grammar.expression_faithful {limit pos : Nat} {text : List Char} {e : Expr} {next : Cursor}
    (h : expression.runWithin limit text pos = .success e next) :
    e.WellFormed ∧ pos < next.offset ∧ next.offset ≤ text.length ∧
      (∃ ts, e.Spelling ts ∧ Layout ts ((text.drop pos).take (next.offset - pos))) ∧
      NoOperator (text.drop next.offset) := by
  have hOutcome := expression_outcome limit (Cursor.place text pos)
  rw [Parser.runWithin] at h
  rw [h] at hOutcome
  generalize hResult : Outcome.success e next = outcome at hOutcome
  cases hOutcome with
  | @success e ts rest hSpelling hForm hNesting hWritten hEnd =>
      obtain ⟨rfl, rfl⟩ := Outcome.success.inj hResult
      have hText : (Cursor.place text pos).rest = text.drop pos := rfl
      rw [hText] at hWritten
      have hShorter := hWritten.length_lt hSpelling.ne_nil
      obtain ⟨head, hHead, hLayout⟩ := hWritten.layout
      have hLengths := congrArg List.length hHead
      simp only [List.length_drop, List.length_append] at hLengths hShorter
      have hOffset : ((Cursor.place text pos).before rest).offset = pos + head.length := by
        rw [Cursor.offset_before, hText, hHead, List.length_append, Nat.add_sub_cancel]
        rfl
      have hRest : text.drop (pos + head.length) = rest := by
        rw [← List.drop_drop, hHead, List.drop_left]
      rw [hOffset, hRest]
      refine ⟨hForm, by omega, by omega, ⟨ts, hSpelling, ?_⟩, hEnd⟩
      rwa [Nat.add_sub_cancel_left, hHead, List.take_left]
  | failure | tooDeep => cases hResult

/-- The source of a program is nothing but blanks and its statements in order. -/
theorem Source.program_faithful {limit : Nat} {source : Source} {node : Node}
    (h : source.parseWithin limit .program = .ok node) :
    ∃ (lead : List Char) (segments : List Segment), IsBlank lead ∧
      source.text = lead ++ Segment.allText segments ∧
      node = .program ⟨segments.map fun s => s.stmt, source.filename⟩ := by
  obtain ⟨lead, text, hText, hLead, _, hOutcome⟩ := exists_parseOutcome h
  cases hOutcome with
  | accepted hSentence hWritten =>
      cases hSentence with
      | program hWithin hChain =>
          obtain ⟨segments, rfl, rfl⟩ := Segment.exists_of_written hWritten
          refine ⟨lead, segments, hLead, hText, ?_⟩
          rw [List.map_map]
          rfl

/-- An expression that is read is spelled by the characters that were passed,
and it ends where no operator continues it. A program that is read is all of
its source, cut into blanks and statements. -/
theorem parse_faithful :
    (∀ (limit pos : Nat) (text : List Char) (e : Expr) (next : Cursor),
      expression.runWithin limit text pos = .success e next →
        e.WellFormed ∧ pos < next.offset ∧ next.offset ≤ text.length ∧
          (∃ ts, e.Spelling ts ∧ Layout ts ((text.drop pos).take (next.offset - pos))) ∧
          NoOperator (text.drop next.offset)) ∧
    (∀ (limit : Nat) (source : Source) (node : Node),
      source.parseWithin limit .program = .ok node →
        ∃ (lead : List Char) (segments : List Segment), IsBlank lead ∧
          source.text = lead ++ Segment.allText segments ∧
          node = .program ⟨segments.map fun s => s.stmt, source.filename⟩) := by
  refine ⟨fun limit pos text e next h => ?_, fun limit source node h => ?_⟩
  · exact expression_faithful h
  · exact Source.program_faithful h

/-- Reading stops in front of what is no operator, and a program keeps even the
semicolon that its tree does not show. -/
theorem parse_faithful_sum :
    (∃ ts, Expr.Spelling (.operation .add (.literal (.int 1)) (.var "x")) ts ∧
        Layout ts "1 +x ".toList) ∧
      NoOperator ")".toList ∧
      ∃ (lead : List Char) (segments : List Segment), IsBlank lead ∧
        " x;".toList = lead ++ Segment.allText segments ∧
        segments.map (fun s => s.stmt) = [.expression (.var "x")] := by
  have hRead : expression.runWithin 1 "(1 +x )".toList 1 =
      .success (.operation .add (.literal (.int 1)) (.var "x")) (Cursor.place "(1 +x )".toList 6) := by
    rfl
  have hProgram : Source.parseWithin 1 ⟨"<stdin>", " x;".toList⟩ .program =
      .ok (.program ⟨[.expression (.var "x")], "<stdin>"⟩) := by
    rfl
  obtain ⟨_, _, _, hSpelled, hEnd⟩ := parse_faithful.1 1 1 "(1 +x )".toList _ _ hRead
  obtain ⟨lead, segments, hLead, hText, hNode⟩ := parse_faithful.2 1 _ _ hProgram
  refine ⟨hSpelled, hEnd, lead, segments, hLead, hText, ?_⟩
  injection hNode with hNode
  injection hNode with hStatements
  exact hStatements.symm

end Scriptlet
