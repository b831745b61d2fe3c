import Scriptlet.Proofs.Entry

namespace Scriptlet

open Grammar

/-- A statement of a program with the text that it takes, trailing blanks
included. -/
structure Segment extends Piece where
  text : List Char
  layout : Layout tokens text

namespace Segment

/-- In a declaration the name must not run into the word in front of it. -/
def LetApart (s : Segment) : Prop :=
  ∀ v, s.stmt = .declaration v →
    ∃ x ∈ (s.text.drop "let".toList.length).head?, isBlank x = true

/-- What may be written after a statement. After a semicolon that is anything.
Otherwise the last token must be over, and the statement must not become part
of a declaration. -/
def Boundary (s next : Segment) : Prop :=
  s.tokens.getLast? = some .semicolon ∨
    (EndsBlank s.text ∨ ∀ t ∈ s.tokens.getLast?, t.Ends next.text) ∧
      s.toPiece.MayFollow next.toPiece

/-- The text of a program. -/
def allText (segments : List Segment) : List Char := segments.flatMap text

variable {s next : Segment} {segments : List Segment} {after : List Char}

theorem ends_of_boundary (h : s.Boundary next) :
    EndsBlank s.text ∨ ∀ t ∈ s.tokens.getLast?, t.Ends next.text := by
  rcases h with hSemicolon | ⟨hEnds, _⟩
  · refine .inr fun t ht => ?_
    obtain rfl := Option.some.inj (hSemicolon.symm.trans ht)
    intro x _
    rfl
  · exact hEnds

theorem mayFollow_of_boundary (h : s.Boundary next) : s.toPiece.MayFollow next.toPiece := by
  rcases h with hSemicolon | ⟨_, hMayFollow⟩
  · intro hAlone
    rw [hAlone] at hSemicolon
    exact absurd (Option.some.inj hSemicolon) Token.noConfusion
  · exact hMayFollow

theorem valid (s : Segment) : ∀ t ∈ s.tokens, t.Valid := s.spelling.valid s.form

theorem text_ne_nil (s : Segment) : s.text ≠ [] := by
  have hLayout := s.layout
  cases hTokens : s.tokens with
  | nil => exact absurd hTokens s.spelling.ne_nil
  | cons t ts =>
      rw [hTokens] at hLayout
      exact hLayout.ne_nil (s.valid t (hTokens ▸ List.mem_cons_self))

/-- The text of a segment is read as its tokens. -/
theorem written (s : Segment) (hLet : s.LetApart) (hAfter : NoBlank after)
    (hLast : EndsBlank s.text ∨ ∀ t ∈ s.tokens.getLast?, t.Ends after) :
    Written s.tokens (s.text ++ after) after := by
  obtain ⟨⟨stmt, tokens, hSpelling, hForm⟩, text, hLayout⟩ := s
  have hValid := hSpelling.valid hForm
  cases hSpelling with
  | bare h => exact hLayout.written hValid (h.apart hForm) hAfter hLast
  | @terminated e ts h =>
      refine hLayout.written hValid ?_ hAfter hLast
      refine List.isChain_append.mpr ⟨h.apart hForm, .singleton _, fun t ht u hu => ?_⟩
      obtain rfl := Option.some.inj hu
      exact Token.ends_of_not_operator (h.last_not_operator t ht) rfl (by decide) (by decide)
  | @declaration v ts h =>
      obtain ⟨us, rfl, hApart⟩ := h.apart hForm
      cases hLayout with
      | @cons _ _ run others hRun hOthers =>
          have hName : (Token.word v.name.toList).Valid := hForm.1
          have hLater : ∀ t ∈ Token.word v.name.toList :: us, t.Valid :=
            fun t ht => hValid t (List.mem_cons_of_mem _ ht)
          have hText := hOthers.ne_nil hName
          have hBlank : run ≠ [] := by
            rintro rfl
            obtain ⟨x, hx, hBlank⟩ := hLet v rfl
            have hNoBlank : NoBlank (others ++ []) := hOthers.noBlank hLater noBlank_nil
            rw [List.append_nil] at hNoBlank
            have hHere := hNoBlank x hx
            rw [hBlank] at hHere
            exact absurd hHere (by decide)
          rw [List.append_assoc, List.append_assoc]
          refine .cons (Token.read_of_blanks isName_let hRun (hOthers.noBlank hLater hAfter)
            (.inl hBlank)) (hOthers.written hLater hApart hAfter ?_)
          rcases hLast with ⟨x, hx, hEnd⟩ | hEnds
          · refine .inl ⟨x, ?_, hEnd⟩
            change x ∈ (Token.text (.word "let".toList) ++ (run ++ others)).getLast? at hx
            rwa [← List.append_assoc, List.getLast?_append_of_ne_nil _ hText] at hx
          · exact .inr hEnds

theorem noBlank_allText (segments : List Segment) : NoBlank (allText segments) := by
  induction segments with
  | nil => simp [NoBlank, allText]
  | cons s segments ih => exact s.layout.noBlank s.valid ih

/-- The text of a program is read as the tokens of its statements. -/
theorem written_allText (hLet : ∀ s ∈ segments, s.LetApart) (hChain : segments.IsChain Boundary) :
    Written (Piece.allTokens (segments.map toPiece)) (allText segments) [] := by
  induction segments with
  | nil => exact .nil []
  | cons s segments ih =>
      have hLater := ih (fun t ht => hLet t (List.mem_cons_of_mem s ht)) hChain.of_cons
      refine (s.written (hLet s List.mem_cons_self) (noBlank_allText segments) ?_).append hLater
      cases segments with
      | nil => exact .inr fun t _ x hx => absurd hx (by simp [allText])
      | cons next segments =>
          rcases ends_of_boundary hChain.rel with hBlank | hEnds
          · exact .inl hBlank
          · exact .inr fun t ht => (hEnds t ht).append next.text_ne_nil

end Segment

/-- Whatever is written out token by token is read back. For an expression any
blanks may stand between the tokens; for a program they may be missing wherever
no token runs into the next one. -/
theorem parse_spelled (limit : Nat) (hLimit : 100 < limit) (filename : String) :
    (∀ e : Expr, e.WellFormed → e.nesting ≤ 100 →
      (∃ ts, e.Spelling ts) ∧
      ∀ (ts : List Token) (lead text : List Char), e.Spelling ts → IsBlank lead → Layout ts text →
        Source.parseWithin limit ⟨filename, lead ++ text⟩ .expression = .ok (.expr e)) ∧
    (∀ (lead : List Char) (segments : List Segment), IsBlank lead →
      (∀ s ∈ segments, (∀ e ∈ s.stmt.expression?, e.nesting ≤ 100) ∧ s.LetApart) →
      segments.IsChain Segment.Boundary →
        Source.parseWithin limit ⟨filename, lead ++ Segment.allText segments⟩ .program =
          .ok (.program ⟨segments.map fun s => s.stmt, filename⟩)) := by
  refine ⟨fun e hForm hNesting => ⟨Expr.exists_spelling hForm, ?_⟩, ?_⟩
  · intro ts lead text hSpelling hLead hLayout
    have hNil : NoBlank [] := by simp [NoBlank]
    have hValid := hSpelling.valid hForm
    have hNoBlank := hLayout.noBlank hValid hNil
    have hWritten := hLayout.written hValid (hSpelling.apart hForm) hNil
      (.inr fun t _ x hx => absurd hx (by simp))
    rw [List.append_nil] at hNoBlank hWritten
    exact Source.parseWithin_of_sentence (.expression hSpelling hForm (by omega)) rfl hLead
      hNoBlank hWritten
  · intro lead segments hLead hSegments hChain
    have hWritten := Segment.written_allText (fun s hs => (hSegments s hs).2) hChain
    have hMayFollow : (segments.map Segment.toPiece).IsChain Piece.MayFollow :=
      List.isChain_map_of_isChain Segment.toPiece (fun _ _ => Segment.mayFollow_of_boundary) hChain
    have hWithin : ∀ p ∈ segments.map Segment.toPiece, p.Within limit := by
      intro p hp e he
      obtain ⟨s, hs, rfl⟩ := List.mem_map.mp hp
      have hNesting := (hSegments s hs).1 e he
      omega
    have hSentence : Sentence limit filename .program _ _ := .program hWithin hMayFollow
    rw [List.map_map] at hSentence
    exact Source.parseWithin_of_sentence hSentence rfl hLead (Segment.noBlank_allText segments) hWritten

/-- A group with and without blanks, and a declaration before a use. -/
theorem parse_spelled_group :
    Source.parseWithin Parser.nestingLimit ⟨"<stdin>", " ( 1+x) ".toList⟩ .expression =
        .ok (.expr (.parens (.operation .add (.literal (.int 1)) (.var "x")))) ∧
      Source.parseWithin Parser.nestingLimit ⟨"<stdin>", "let x=1;x".toList⟩ .program =
        .ok (.program ⟨[.declaration ⟨"x", none, some (.literal (.int 1))⟩, .expression (.var "x")],
          "<stdin>"⟩) := by
  have hOne : Literal.Spelling (.int 1) (.digits ['1']) :=
    @Literal.Spelling.int ['1'] (by decide)
  have hX : Expr.WellFormed (.var "x") := ⟨by decide, by decide, by decide⟩
  have hGroup : Expr.WellFormed (.parens (.operation .add (.literal (.int 1)) (.var "x"))) :=
    ⟨trivial, hX, rfl⟩
  have hSpelling : Expr.Spelling (.parens (.operation .add (.literal (.int 1)) (.var "x")))
      [.openParen, .digits ['1'], .operator .add, .word ['x'], .closeParen] :=
    .parens (.operation (.literal hOne) (.var "x"))
  have hLayout : Layout [.openParen, .digits ['1'], .operator .add, .word ['x'], .closeParen]
      "( 1+x) ".toList :=
    @Layout.cons _ _ [' '] _ (by decide) (@Layout.cons _ _ [] _ (by decide)
      (@Layout.cons _ _ [] _ (by decide) (@Layout.cons _ _ [] _ (by decide)
        (@Layout.cons _ _ [' '] _ (by decide) .nil))))
  have hDeclared : Variable.WellFormed ⟨"x", none, some (.literal (.int 1))⟩ :=
    ⟨by decide, fun e he => Option.some.inj he ▸ trivial⟩
  let declared : Segment := ⟨⟨.declaration ⟨"x", none, some (.literal (.int 1))⟩, _,
    .declaration (.mk "x" none (.some (.literal hOne))), hDeclared⟩, "let x=1;".toList,
    @Layout.cons _ _ [' '] _ (by decide) (@Layout.cons _ _ [] _ (by decide)
      (@Layout.cons _ _ [] _ (by decide) (@Layout.cons _ _ [] _ (by decide)
        (@Layout.cons _ _ [] _ (by decide) .nil))))⟩
  let used : Segment := ⟨⟨.expression (.var "x"), _, .bare (.var "x"), hX⟩, "x".toList,
    @Layout.cons _ _ [] _ (by decide) .nil⟩
  obtain ⟨hExpression, hProgram⟩ := parse_spelled Parser.nestingLimit (by decide) "<stdin>"
  refine ⟨?_, ?_⟩
  · exact (hExpression _ hGroup (by decide)).2 _ [' '] _ hSpelling (by decide) hLayout
  · refine hProgram [] [declared, used] (by decide) ?_ (.cons_cons (.inl rfl) (.singleton used))
    intro s hs
    simp only [List.mem_cons, List.not_mem_nil, or_false] at hs
    rcases hs with rfl | rfl
    · exact ⟨fun e he => Option.some.inj he ▸ Nat.zero_le 100, fun _ _ => ⟨' ', rfl, rfl⟩⟩
    · exact ⟨fun e he => Option.some.inj he ▸ Nat.zero_le 100, fun v hv => Stmt.noConfusion hv⟩

end Scriptlet
