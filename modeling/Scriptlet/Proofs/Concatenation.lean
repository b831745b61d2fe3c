import Scriptlet.Proofs.Driver
import Scriptlet.Proofs.EntryPoints

namespace Scriptlet

open Grammar Scriptlet.Parser

namespace Grammar

variable {ts : List Token} {text run new : List Char} {offset : Nat}

theorem SemicolonAt.not_isBlank (h : SemicolonAt text offset) : ¬ IsBlank text := by
  obtain ⟨head, run, rfl, _, _⟩ := h
  intro hBlank
  exact absurd (hBlank ';' (by simp)) (by decide)

/-- Nothing that follows a semicolon runs into the tokens up to it. -/
theorem Written.after_semicolon (h : Written ts text []) (hLast : ts.getLast? = some .semicolon)
    (hRun : IsBlank run) (hNew : NoBlank new) : Written ts (text ++ (run ++ new)) new := by
  obtain ⟨front, rfl⟩ := List.getLast?_eq_some_iff.mp hLast
  obtain ⟨mid, hFront, hEnd⟩ := written_append h
  obtain ⟨blanks, hBlanks, hMid, _⟩ := (written_single hEnd).split
  obtain ⟨head, hHead⟩ := hFront.suffix
  have hAll : IsBlank (blanks ++ run) := by
    intro x hx
    rcases List.mem_append.mp hx with hx | hx
    · exact hBlanks x hx
    · exact hRun x hx
  have hSemicolon : Token.semicolon.Read (mid ++ (run ++ new)) new := by
    have hRead := Token.read_of_blanks Token.valid_semicolon hAll hNew (.inr fun _ _ => rfl)
    simpa [hMid] using hRead
  have hBefore : Written front (head ++ ([] ++ (mid ++ (run ++ new)))) (mid ++ (run ++ new)) := by
    apply hFront.continued
    · exact hHead.symm
    · exact isBlank_nil
    · intro x hx
      rw [hMid] at hx
      obtain rfl := Option.some.inj hx
      decide
    · intro t ht x hx
      rw [hMid] at ht hx
      obtain rfl := Option.some.inj hx
      exact ht ';' rfl
    · exact fun _ => rfl
  rw [← hHead, List.append_assoc]
  exact hBefore.append (.single hSemicolon)

end Grammar

/-- Statements whose last token is a semicolon are over in front of anything. -/
theorem Piece.over_of_semicolon {pieces : List Piece} {rest : List Char}
    (h : (allTokens pieces).getLast? = some .semicolon) : Over pieces rest := by
  right
  intro p hp
  obtain ⟨front, rfl⟩ := List.getLast?_eq_some_iff.mp hp
  have hTokens : allTokens (front ++ [p]) = allTokens front ++ p.tokens := by
    simp [allTokens]
  rwa [hTokens, List.getLast?_append_of_ne_nil _ p.spelling.ne_nil] at h

/-! The same text further on in another one. -/

namespace Alignment

variable {count : Nat} {c c' : Cursor} {mid : List Char}

/-- Places in front of the same text, that many characters further on. -/
def shift (count : Nat) : Alignment where
  cursors c c' := c.rest = c'.rest ∧ c.offset = count + c'.offset
  offsets i i' := i = count + i'
  offset h := h.2
  ordered h hOther := by
    omega

theorem shift_before (h : (shift count).cursors c c') (hSuffix : mid <:+ c.rest) :
    (shift count).cursors (c.before mid) (c'.before mid) := by
  obtain ⟨hRest, hOffset⟩ := h
  have hSuffix' : mid <:+ c'.rest := hRest ▸ hSuffix
  constructor
  · rw [Cursor.rest_before hSuffix, Cursor.rest_before hSuffix']
  · rw [Cursor.offset_before, Cursor.offset_before, hOffset, hRest, Nat.add_assoc]

theorem shift_faithful (count : Nat) : (shift count).Faithful where
  forth := {
    token := fun h hRead => ⟨_, h.1 ▸ hRead, shift_before h hRead.suffix⟩
    quote := fun h hText hBody =>
      ⟨_, h.1 ▸ hText, hBody, (shift_before h List.nil_suffix).2⟩
    ending := fun h hEnd => h.1 ▸ hEnd }
  back := {
    token := fun h hRead => ⟨_, h.1.symm ▸ hRead, shift_before h (h.1.symm ▸ hRead.suffix)⟩
    quote := fun h hText hBody =>
      ⟨_, h.1.symm ▸ hText, hBody, (shift_before h List.nil_suffix).2⟩
    ending := fun h hEnd => h.1.symm ▸ hEnd }

end Alignment

namespace Source

variable {limit : Nat} {first second joined : Source} {program : Program} {offset : Nat}

/-- The statements that a source begins with are read one after the other,
until they are over. The loop goes on there with rounds enough. -/
theorem program_through {source : Source} {lead text rest : List Char} {pieces : List Piece}
    (hText : source.text = lead ++ text) (hLead : IsBlank lead) (hNoBlank : NoBlank text)
    (hWithin : ∀ p ∈ pieces, p.Within limit) (hChain : pieces.IsChain Piece.MayFollow)
    (h : Written (Piece.allTokens pieces) text rest) (hOver : Piece.Over pieces rest) :
    ∃ rounds, rest.length < rounds ∧
      source.parseWithin limit .program =
        (source.statements limit rounds (source.before rest) (pieces.map Piece.stmt).reverse).map
          fun all => .program ⟨all, source.filename⟩ := by
  have hSuffix : text <:+ source.text := ⟨lead, hText.symm⟩
  have hStart : (source.before text).rest = text := rest_before hSuffix
  have hLength := length_of_pieces h
  obtain ⟨rounds, hRounds⟩ : ∃ rounds, text.length + 1 = rounds + pieces.length :=
    Nat.exists_eq_add_of_le' (by omega)
  refine ⟨rounds, by omega, ?_⟩
  rw [parseWithin_program (firstToken_of_lead hText hLead hNoBlank), hStart, hRounds,
    statements_through hWithin hChain (by rwa [hStart]) hOver, before_before hSuffix h.suffix,
    List.append_nil]

/-- After a program that ends with a semicolon, a source is read as it is by
itself: that many characters later, and with the statements of the program in
front of its own. -/
theorem program_linked (hJoined : joined.text = first.text ++ second.text)
    (hFirst : first.parseWithin limit .program = .ok (.program program))
    (hEnd : SemicolonAt first.text offset) :
    Linked (Alignment.shift first.text.length).link joined second
      (fun node node' => ∃ others, node = .program ⟨program.statements ++ others, joined.filename⟩ ∧
        node' = .program ⟨others, second.filename⟩)
      (joined.parseWithin limit .program) (second.parseWithin limit .program) := by
  obtain ⟨lead, text, ts, hText, hLead, hNoBlank, hWritten, hSentence⟩ := parseWithin_ok_iff.mp hFirst
  obtain ⟨run, new, hSecond, hRun, hNew⟩ := exists_run isBlank second.text
  cases hSentence with
  | @program pieces hWithin hChain =>
      have hNonempty : text ≠ [] := by
        rintro rfl
        rw [hText, List.append_nil] at hEnd
        exact hEnd.not_isBlank hLead
      have hTokens : Piece.allTokens pieces ≠ [] := by
        intro hNone
        rw [hNone] at hWritten
        cases hWritten
        exact hNonempty rfl
      have hLast := hWritten.last_semicolon hTokens (hText ▸ hEnd)
      have hThrough := hWritten.after_semicolon hLast hRun hNew
      have hSplit : joined.text = lead ++ (text ++ (run ++ new)) := by
        rw [hJoined, hText, hSecond, List.append_assoc]
      have hReached : new <:+ joined.text := hThrough.suffix.trans ⟨lead, hSplit.symm⟩
      obtain ⟨rounds, hRounds, hProgram⟩ := program_through hSplit hLead (hNoBlank.append hNonempty)
        hWithin hChain hThrough (Piece.over_of_semicolon hLast)
      -- Where the program is over, the joined source goes on as the second one.
      have hCursors : (Alignment.shift first.text.length).cursors (joined.before new)
          (second.before new) := by
        constructor
        · rw [rest_before hReached, rest_before ⟨run, hSecond.symm⟩]
        · rw [offset_before, offset_before, hJoined, hSecond]
          simp only [List.length_append]
          omega
      have hEnough : (joined.before new).rest.length < rounds := by
        rwa [rest_before hReached]
      have hLoop := statements_linked (Alignment.shift_faithful first.text.length) joined second limit
        (pieces.map Piece.stmt).reverse [] hCursors hEnough (Nat.lt_succ_self _)
      rw [hProgram, parseWithin_program (firstToken_of_lead hSecond hRun hNew)]
      apply hLoop.map
      rintro all all' ⟨others, hAll, hOthers⟩
      exact ⟨others, by rw [hAll, List.reverse_reverse], by rw [hOthers]; rfl⟩

end Source

/-- Programs compose. When a program ends with a semicolon, whatever comes after
it is read as it is by itself: what is a program there adds its statements to
those in front, and what is none is rejected for want of the same, only so many
characters later. -/
theorem programs_compose (limit : Nat) (filename : String) (first second : Source)
    (program : Program) (offset : Nat)
    (hFirst : first.parseWithin limit .program = .ok (.program program))
    (hEnd : SemicolonAt first.text offset) :
    (∀ other, second.parseWithin limit .program = .ok (.program other) →
      Source.parseWithin limit ⟨filename, first.text ++ second.text⟩ .program =
        .ok (.program ⟨program.statements ++ other.statements, filename⟩)) ∧
    (∀ error, second.parseWithin limit .program = .error (.rejected error) →
      ∃ error', Source.parseWithin limit ⟨filename, first.text ++ second.text⟩ .program =
          .error (.rejected error') ∧
        error'.offset = first.text.length + error.offset ∧ error'.expected = error.expected) := by
  have hJoined : Source.text ⟨filename, first.text ++ second.text⟩ = first.text ++ second.text := rfl
  have hLinked := Source.program_linked hJoined hFirst hEnd
  constructor
  · intro other hSecond
    rw [hSecond] at hLinked
    generalize Source.parseWithin limit ⟨filename, first.text ++ second.text⟩ .program =
      result at hLinked
    cases hLinked with
    | ok hSame =>
        obtain ⟨others, rfl, hOther⟩ := hSame
        cases hOther
        rfl
  · intro error hSecond
    rw [hSecond] at hLinked
    generalize Source.parseWithin limit ⟨filename, first.text ++ second.text⟩ .program =
      result at hLinked
    cases hLinked with
    | rejected hReason => exact ⟨_, rfl, hReason.offset, congrArg Labels.toList hReason.expected⟩
    | tooDeep hCursors => exact ⟨_, rfl, hCursors.2, rfl⟩

/-- Names one after the other, and a parenthesis too many that is reported at its
place in the whole text. -/
theorem programs_compose_names :
    Source.parseWithin 2 ⟨"<stdin>", "x; ".toList ++ " y".toList⟩ .program =
        .ok (.program ⟨[.expression (.var "x"), .expression (.var "y")], "<stdin>"⟩) ∧
      ∃ error, Source.parseWithin 2 ⟨"<stdin>", "x; ".toList ++ "y )".toList⟩ .program =
          .error (.rejected error) ∧ error.offset = 3 + 2 := by
  have hEnd : SemicolonAt "x; ".toList 1 := ⟨['x'], [' '], rfl, by decide, rfl⟩
  obtain ⟨hAccepted, _⟩ := programs_compose 2 "<stdin>" ⟨"a", "x; ".toList⟩ ⟨"b", " y".toList⟩
    ⟨[.expression (.var "x")], "a"⟩ 1 rfl hEnd
  obtain ⟨_, hRejected⟩ := programs_compose 2 "<stdin>" ⟨"a", "x; ".toList⟩ ⟨"b", "y )".toList⟩
    ⟨[.expression (.var "x")], "a"⟩ 1 rfl hEnd
  obtain ⟨error, hError, hOffset, _⟩ := hRejected _ rfl
  exact ⟨hAccepted ⟨[.expression (.var "y")], "b"⟩ rfl, error, hError, hOffset⟩

end Scriptlet
