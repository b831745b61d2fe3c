import Scriptlet.Entry
import Scriptlet.Proofs.Grammar.Ending

namespace Scriptlet

open Grammar

/-- A statement of a program with tokens that spell it. -/
structure Piece where
  stmt : Stmt
  tokens : List Token
  spelling : stmt.Spelling tokens
  form : stmt.WellFormed

namespace Piece

/-- The expression of the statement, if any, is nested less than a limit. -/
def Within (limit : Nat) (p : Piece) : Prop := ∀ e ∈ p.stmt.expression?, e.nesting < limit

/-- Whether a statement can come right after another one. It cannot when the
word for declarations stands alone as a variable and a name with a semicolon
comes next, since both together are a declaration. -/
def MayFollow (p next : Piece) : Prop :=
  p.tokens = [.word "let".toList] → ∀ name, next.tokens ≠ [.word name, .semicolon]

def allTokens (pieces : List Piece) : List Token := pieces.flatMap tokens

/-- Statements are over in front of a text when nothing follows or the last of
them ends with a semicolon. -/
def Over (pieces : List Piece) (rest : List Char) : Prop :=
  rest = [] ∨ ∀ p ∈ pieces.getLast?, p.tokens.getLast? = some .semicolon

/-- What comes after a statement neither continues it nor makes a declaration of
it. After a semicolon that may be anything. -/
def EndsBefore (p : Piece) (text : List Char) : Prop :=
  p.tokens.getLast? = some .semicolon ∨
    NoOperator text ∧ text.head? ≠ some ';' ∧
      (p.tokens = [.word "let".toList] → ∀ name afterName,
        (Token.word name).Read text afterName → ¬ AfterName afterName)

@[simp] theorem allTokens_nil : allTokens [] = [] := rfl

@[simp] theorem allTokens_cons (p : Piece) (pieces : List Piece) :
    allTokens (p :: pieces) = p.tokens ++ allTokens pieces := rfl

theorem Over.of_cons {p : Piece} {pieces : List Piece} {rest : List Char}
    (h : Over (p :: pieces) rest) : Over pieces rest := by
  cases pieces with
  | nil => exact .inr fun q hq => absurd hq (by simp)
  | cons q pieces =>
      rw [Over, List.getLast?_cons_cons] at h
      exact h

/-- Nothing follows a last statement that is open. -/
theorem Over.eq_nil {p : Piece} {pieces : List Piece} {rest : List Char}
    (h : Over (p :: pieces) rest) (hOpen : p.tokens.getLast? ≠ some .semicolon)
    (hLast : pieces = []) : rest = [] := by
  subst hLast
  rcases h with hRest | hSemicolon
  · exact hRest
  · exact absurd (hSemicolon p rfl) hOpen

end Piece

namespace Grammar

open Scriptlet.Parser

variable {pieces : List Piece} {d : Nat} {c : Cursor} {text mid rest : List Char}

/-! What comes after a statement. -/

theorem startsOperand_of_written {t : Token} {ts : List Token} (h : StartsOperand t.text)
    (hWritten : Written (t :: ts) text rest) : StartsOperand text := by
  obtain ⟨x, hx, hKind⟩ := h
  cases hWritten with
  | cons hFirst _ => exact ⟨x, hFirst.head?.trans hx, hKind⟩

theorem Piece.startsOperand (p : Piece) {ts : List Token} (h : Written (p.tokens ++ ts) text rest) :
    StartsOperand text := by
  have hFirst := p.spelling.startsOperand p.form
  cases hTokens : p.tokens with
  | nil => exact absurd hTokens p.spelling.ne_nil
  | cons t us =>
      rw [hTokens] at h hFirst
      exact startsOperand_of_written (hFirst t rfl) h

/-- At the end of the text, or in front of another statement. -/
theorem startsOperand_of_pieces (h : Written (Piece.allTokens pieces) text rest)
    (hLast : pieces = [] → rest = []) : text = [] ∨ StartsOperand text := by
  cases pieces with
  | nil =>
      cases h
      exact .inl (hLast rfl)
  | cons p pieces => exact .inr (Piece.startsOperand p h)

/-- What comes after the first word of a statement does not make a declaration
of it, unless the statement is a word with a semicolon. -/
theorem not_afterName_of_spelling {s : Stmt} {name : List Char} {all ts us : List Token}
    (hSpelling : s.Spelling all) (hAll : all = .word name :: ts) (hSemicolon : ts ≠ [.semicolon])
    (h : Written (ts ++ us) text rest) (hAlone : ts = [] → text = [] ∨ StartsOperand text) :
    ¬ AfterName text := by
  have hOperator : ∀ {us : List Token}, Written us text rest →
      (∃ op vs, us = .operator op :: vs) → ¬ AfterName text := by
    rintro us hWritten ⟨op, vs, rfl⟩
    cases hWritten with
    | cons hFirst _ => exact not_afterName_of_operator hFirst
  cases hSpelling with
  | declaration hSpelling =>
      cases hSpelling
      obtain ⟨_, rfl⟩ := List.cons.inj hAll
      cases h with
      | cons hWord _ => exact (startsOperand_of_word hWord).not_afterName
  | bare hSpelling =>
      rcases hSpelling.after_word hAll with rfl | ⟨op, vs, rfl⟩
      · rcases hAlone rfl with rfl | hStart
        · exact not_afterName_nil
        · exact hStart.not_afterName
      · exact hOperator h ⟨op, _, rfl⟩
  | @terminated e us hSpelling =>
      cases us with
      | nil => exact absurd rfl hSpelling.ne_nil
      | cons u us =>
          obtain ⟨rfl, rfl⟩ := List.cons.inj hAll
          rcases hSpelling.after_word rfl with rfl | ⟨op, vs, rfl⟩
          · exact absurd rfl hSemicolon
          · exact hOperator h ⟨op, _, rfl⟩

/-- The same for the statements that follow a word by itself. -/
theorem not_afterName_of_word {name afterName : List Char}
    (hFirst : ∀ p ∈ pieces.head?, ∀ name, p.tokens ≠ [.word name, .semicolon])
    (h : Written (Piece.allTokens pieces) text rest) (hOver : Piece.Over pieces rest)
    (hLast : pieces = [] → rest = []) (hName : (Token.word name).Read text afterName) :
    ¬ AfterName afterName := by
  cases pieces with
  | nil =>
      cases h
      rw [hLast rfl] at hName
      exact absurd hName.length_lt (Nat.not_lt_zero _)
  | cons p pieces =>
      have hSemicolon := hFirst p rfl name
      rw [Piece.allTokens_cons] at h
      cases hTokens : p.tokens with
      | nil => exact absurd hTokens p.spelling.ne_nil
      | cons t ts =>
          rw [hTokens] at h hSemicolon
          cases h with
          | cons hHead hOthers =>
              obtain ⟨rfl, rfl⟩ := hHead.eq_word hName
              refine not_afterName_of_spelling p.spelling hTokens (fun hBad => ?_) hOthers ?_
              · rw [hBad] at hSemicolon
                exact hSemicolon rfl
              · rintro rfl
                refine startsOperand_of_pieces hOthers (hOver.eq_nil ?_)
                rw [hTokens]
                simp [Token.semicolon]

/-- A statement ends before those that may follow it. -/
theorem endsBefore_of_pieces {p : Piece} (hChain : (p :: pieces).IsChain Piece.MayFollow)
    (h : Written (Piece.allTokens pieces) text rest) (hOver : Piece.Over (p :: pieces) rest) :
    p.EndsBefore text := by
  by_cases hOpen : p.tokens.getLast? = some .semicolon
  · exact .inl hOpen
  · have hLast := hOver.eq_nil hOpen
    have hNext := startsOperand_of_pieces h hLast
    refine .inr ⟨?_, ?_, fun hAlone name afterName hName => ?_⟩
    · rcases hNext with rfl | hStart
      · exact noOperator_nil
      · exact hStart.noOperator
    · rcases hNext with rfl | hStart
      · decide
      · exact hStart.head_ne (by decide)
    · refine not_afterName_of_word (fun q hq => ?_) h hOver.of_cons hLast hName
      exact (List.isChain_cons.mp hChain).1 q hq hAlone

/-- Every statement takes a character at least. -/
theorem length_of_pieces (h : Written (Piece.allTokens pieces) text rest) :
    pieces.length + rest.length ≤ text.length := by
  induction pieces generalizing text with
  | nil =>
      cases h
      simp
  | cons p pieces ih =>
      obtain ⟨mid, hPiece, hOthers⟩ := written_append h
      have hShorter : mid.length < text.length := hPiece.length_lt p.spelling.ne_nil
      have hLater := ih hOthers
      simp only [List.length_cons]
      omega

/-- The word for declarations and a name with a semicolon together are one. -/
theorem declaration_of_name {name : List Char} (hLet : Written [.word "let".toList] c.rest mid)
    (hName : Written [.word name, .semicolon] mid rest) :
    declaration.step d c = .success ⟨String.ofList name, none, none⟩ (c.before rest) := by
  have hSpelled : (String.ofList name).toList = name := String.toList_ofList
  rw [← hSpelled] at hName
  have hForm : IsName (String.ofList name).toList := by
    cases hName with
    | cons hWord _ => exact hWord.valid
  exact declaration_of_spelling (.mk (String.ofList name) none .none) ⟨hForm, by simp⟩ (by simp)
    (hLet.append hName)

/-! Separators. -/

theorem separator_of_read (h : Token.semicolon.Read c.rest rest) :
    statementSeparator.step d c = .success (some ';') (c.before rest) :=
  optional_of_success (symbol_of_read h)

theorem separator_of_miss (h : c.rest.head? ≠ some ';') :
    statementSeparator.step d c = .success none c :=
  optional_of_misses (misses_here (symbol_of_miss h))

/-- A separator is always found, if only an empty one. -/
theorem separator_reaches (d : Nat) (c : Cursor) :
    ∃ separator rest, statementSeparator.step d c = .success separator (c.before rest) ∧
      rest <:+ c.rest := by
  by_cases hSemicolon : c.rest.head? = some ';'
  · obtain ⟨rest, hMark⟩ := read_mark (by decide : ';' ∈ marks) hSemicolon
    exact ⟨_, rest, separator_of_read hMark, hMark.suffix⟩
  · refine ⟨none, c.rest, ?_, List.suffix_refl c.rest⟩
    rw [separator_of_miss hSemicolon, Cursor.before_rest]

/-- A statement takes some of the text that follows. -/
theorem statement_reaches {s : Stmt} {next : Cursor} (h : statement.step d c = .success s next) :
    ∃ rest, next = c.before rest ∧ rest <:+ c.rest ∧ rest.length < c.rest.length := by
  have hOutcome := statement_outcome d c
  rw [h] at hOutcome
  generalize hResult : Outcome.success s next = outcome at hOutcome
  cases hOutcome with
  | @declaration v ts rest hSpelling _ _ hWritten =>
      cases hResult
      exact ⟨rest, rfl, hWritten.suffix,
        hWritten.length_lt (Stmt.Spelling.declaration hSpelling).ne_nil⟩
  | @expression e ts rest hSpelling _ _ hWritten =>
      cases hResult
      exact ⟨rest, rfl, hWritten.suffix, hWritten.length_lt hSpelling.ne_nil⟩
  | failure | tooDeep => cases hResult

end Grammar

namespace Source

open Scriptlet.Parser

variable {source : Source} {limit rounds : Nat} {c next last : Cursor} {mid rest : List Char}
  {found : List Stmt} {pieces : List Piece}

/-! Rounds of the loop over the statements. -/

/-- One round, stated apart because the equations that unfolding would derive
for the loop are slow to check. -/
theorem statements_succ : source.statements limit (rounds + 1) c found =
    if c.rest.isEmpty then .ok found.reverse
    else
      match source.applyWithin limit Grammar.statement c with
      | .error fault => .error fault
      | .ok (.declaration declared, next) =>
        source.statements limit rounds next (.declaration declared :: found)
      | .ok (.expression expr, next) =>
        match source.applyWithin limit statementSeparator next with
        | .error fault => .error fault
        | .ok (_, next) => source.statements limit rounds next (.expression expr :: found) := by
  rfl

theorem statements_end (h : c.rest = []) :
    source.statements limit (rounds + 1) c found = .ok found.reverse := by
  rw [statements_succ, h]
  rfl

section Round

variable (hRest : c.rest ≠ [])

include hRest

theorem statements_declaration {v : Variable}
    (h : statement.step limit c = .success (.declaration v) next) :
    source.statements limit (rounds + 1) c found =
      source.statements limit rounds next (.declaration v :: found) := by
  simp [statements_succ, hRest, applyWithin, conclude, h]

theorem statements_expression {e : Expr} {separator : Option Char}
    (h : statement.step limit c = .success (.expression e) next)
    (hSeparator : statementSeparator.step limit next = .success separator last) :
    source.statements limit (rounds + 1) c found =
      source.statements limit rounds last (.expression e :: found) := by
  simp [statements_succ, hRest, applyWithin, conclude, h, hSeparator]

theorem statements_failure {reason : Failure} (h : statement.step limit c = .failure reason) :
    source.statements limit (rounds + 1) c found = .error (.rejected
      (.place reason.offset reason.expected.toList source.text source.filename none)) := by
  simp [statements_succ, hRest, applyWithin, conclude, h]

theorem statements_tooDeep (h : statement.step limit c = .halted .tooDeep) :
    source.statements limit (rounds + 1) c found = .error (.rejected
      (.place c.offset [] source.text source.filename
        (some "input is nested too deeply to parse"))) := by
  simp [statements_succ, hRest, applyWithin, conclude, h]

end Round

/-- A round takes a spelled statement that ends before what comes next. -/
theorem statements_piece (p : Piece) (hWithin : p.Within limit)
    (hPiece : Written p.tokens c.rest mid) (hEnds : p.EndsBefore mid) :
    source.statements limit (rounds + 1) c found =
      source.statements limit rounds (c.before mid) (p.stmt :: found) := by
  have hShorter : mid.length < c.rest.length := hPiece.length_lt p.spelling.ne_nil
  have hRest : c.rest ≠ [] := List.ne_nil_of_length_pos (by omega)
  have hMid : (c.before mid).rest = mid := Cursor.rest_before hPiece.suffix
  obtain ⟨s, ts, hSpelling, hForm⟩ := p
  cases hSpelling with
  | @declaration v ts hSpelling =>
      have hDeclared : declaration.step limit c = .success v (c.before mid) :=
        declaration_of_spelling hSpelling hForm hWithin hPiece
      exact statements_declaration hRest (statement_of_declaration hDeclared)
  | @bare e ts hSpelling =>
      obtain ⟨hEnd, hSemicolon, hAlone⟩ := hEnds.resolve_left hSpelling.last_not_semicolon
      have hStatement := statement_of_spelling hSpelling hForm (hWithin e rfl) hPiece hEnd
        (not_mayDeclare_of_spelling hSpelling hPiece hAlone)
      have hSeparator : statementSeparator.step limit (c.before mid) = .success none (c.before mid) :=
        separator_of_miss (by rwa [hMid])
      exact statements_expression hRest hStatement hSeparator
  | @terminated e ts hSpelling =>
      obtain ⟨last, hExpr, hLast⟩ := written_append hPiece
      have hMark := written_single hLast
      have hReached : (c.before last).rest = last := Cursor.rest_before hExpr.suffix
      have hNone : ¬ MayDeclare c.rest :=
        not_mayDeclare_of_spelling hSpelling hExpr fun _ name afterName hName =>
          absurd (hMark.eq_word hName).1 Token.noConfusion
      have hStatement := statement_of_spelling hSpelling hForm (hWithin e rfl) hExpr
        (noOperator_of_head? hMark.head? (by decide)) hNone
      have hSeparator : statementSeparator.step limit (c.before last) =
          .success (some ';') (c.before mid) := by
        rw [separator_of_read (by rwa [hReached]), Cursor.before_before hExpr.suffix hMark.suffix]
      exact statements_expression hRest hStatement hSeparator

/-- Statements that are spelled one after the other are read back, one in each
round, up to where they are over. -/
theorem statements_through (hWithin : ∀ p ∈ pieces, p.Within limit)
    (hChain : pieces.IsChain Piece.MayFollow) (h : Written (Piece.allTokens pieces) c.rest rest)
    (hOver : Piece.Over pieces rest) :
    source.statements limit (rounds + pieces.length) c found =
      source.statements limit rounds (c.before rest) ((pieces.map Piece.stmt).reverse ++ found) := by
  induction pieces generalizing c found with
  | nil =>
      generalize hText : c.rest = text at h
      cases h
      rw [← hText, Cursor.before_rest]
      rfl
  | cons p pieces ih =>
      rw [Piece.allTokens_cons] at h
      obtain ⟨mid, hPiece, hOthers⟩ := written_append h
      have hMid : (c.before mid).rest = mid := Cursor.rest_before hPiece.suffix
      have hRound : source.statements limit (rounds + pieces.length + 1) c found =
          source.statements limit (rounds + pieces.length) (c.before mid) (p.stmt :: found) :=
        statements_piece p (hWithin p List.mem_cons_self) hPiece
          (endsBefore_of_pieces hChain hOthers hOver)
      rw [List.length_cons, ← Nat.add_assoc, hRound, ih (fun q hq => hWithin q (List.mem_cons_of_mem p hq))
        hChain.of_cons (by rwa [hMid]) hOver.of_cons, Cursor.before_before hPiece.suffix hOthers.suffix]
      simp

/-- At the end of the text the loop is over. The characters that follow bound
its rounds. -/
theorem statements_of_pieces (hWithin : ∀ p ∈ pieces, p.Within limit)
    (hChain : pieces.IsChain Piece.MayFollow) (h : Written (Piece.allTokens pieces) c.rest [])
    (hRounds : c.rest.length < rounds) :
    source.statements limit rounds c found = .ok (found.reverse ++ pieces.map Piece.stmt) := by
  have hLength := length_of_pieces h
  obtain ⟨fewer, rfl⟩ : ∃ fewer, rounds = fewer + 1 + pieces.length :=
    ⟨rounds - 1 - pieces.length, by omega⟩
  rw [statements_through hWithin hChain h (.inl rfl), statements_end (Cursor.rest_before List.nil_suffix)]
  simp

/-- What the loop over the statements can come to: all of the text is read as
statements, or something goes wrong after some of them. -/
inductive StatementsOutcome (limit : Nat) (source : Source) (c : Cursor) (found : List Stmt) :
    Except Fault (List Stmt) → Prop where
  | success {pieces : List Piece} (hWithin : ∀ p ∈ pieces, p.Within limit)
      (hChain : pieces.IsChain Piece.MayFollow) (hWritten : Written (Piece.allTokens pieces) c.rest []) :
      StatementsOutcome limit source c found (.ok (found.reverse ++ pieces.map Piece.stmt))
  | failure {pieces : List Piece} {k : Nat} {ts : List Token} {start mid rest : List Char}
      {labels : Labels} (hWithin : ∀ p ∈ pieces, p.Within limit)
      (hChain : pieces.IsChain Piece.MayFollow)
      (hPieces : Written (Piece.allTokens pieces) c.rest start)
      (hStuck : StatementStuck limit k ts mid rest labels) (hWritten : Written ts start mid) :
      StatementsOutcome limit source c found (.error (.rejected
        (.place (c.before rest).offset labels.toList source.text source.filename none)))
  | tooDeep {pieces : List Piece} {ts : List Token} {start mid : List Char}
      (hPieces : Written (Piece.allTokens pieces) c.rest start)
      (hExhausted : StatementExhausted limit ts) (hWritten : Written ts start mid) :
      StatementsOutcome limit source c found (.error (.rejected
        (.place (c.before start).offset [] source.text source.filename
          (some "input is nested too deeply to parse"))))

/-- One more statement in front. -/
theorem StatementsOutcome.cons {mid : List Char} {result : Except Fault (List Stmt)} (p : Piece)
    (hWithin : p.Within limit) (hPiece : Written p.tokens c.rest mid)
    (hFollow : ∀ (q : Piece) (rest : List Char), Written q.tokens mid rest → p.MayFollow q)
    (h : StatementsOutcome limit source (c.before mid) (p.stmt :: found) result) :
    StatementsOutcome limit source c found result := by
  have hMid : (c.before mid).rest = mid := Cursor.rest_before hPiece.suffix
  have hChained : ∀ {pieces : List Piece} {rest : List Char}, pieces.IsChain Piece.MayFollow →
      Written (Piece.allTokens pieces) mid rest → (p :: pieces).IsChain Piece.MayFollow := by
    intro pieces rest hChain hWritten
    refine List.isChain_cons.mpr ⟨fun q hq => ?_, hChain⟩
    obtain ⟨others, rfl⟩ := List.head?_eq_some_iff.mp hq
    rw [Piece.allTokens_cons] at hWritten
    obtain ⟨last, hFirst, _⟩ := written_append hWritten
    exact hFollow q last hFirst
  cases h with
  | @success pieces hLater hChain hWritten =>
      rw [hMid] at hWritten
      have hAll : StatementsOutcome limit source c found
          (.ok (found.reverse ++ (p :: pieces).map Piece.stmt)) :=
        .success (List.forall_mem_cons.mpr ⟨hWithin, hLater⟩) (hChained hChain hWritten)
          (hPiece.append hWritten)
      simpa using hAll
  | @failure pieces k ts start last rest labels hLater hChain hPieces hStuck hWritten =>
      rw [hMid] at hPieces
      have hSuffix : rest <:+ mid := hStuck.suffix.trans (hWritten.suffix.trans hPieces.suffix)
      rw [Cursor.before_before hPiece.suffix hSuffix]
      exact .failure (List.forall_mem_cons.mpr ⟨hWithin, hLater⟩) (hChained hChain hPieces)
        (hPiece.append hPieces) hStuck hWritten
  | @tooDeep pieces ts start last hPieces hExhausted hWritten =>
      rw [hMid] at hPieces
      rw [Cursor.before_before hPiece.suffix hPieces.suffix]
      have hAll : Written (Piece.allTokens (p :: pieces)) c.rest start := hPiece.append hPieces
      exact .tooDeep hAll hExhausted hWritten

/-- A statement that is found is one of the program: the next round begins where
it ends, and it does not form a declaration with whatever comes after it. -/
theorem exists_piece (source : Source) {s : Stmt} (hRest : c.rest ≠ [])
    (hStep : statement.step limit c = .success s next) :
    ∃ (p : Piece) (mid : List Char), p.Within limit ∧ Written p.tokens c.rest mid ∧
      (∀ (q : Piece) (rest : List Char), Written q.tokens mid rest → p.MayFollow q) ∧
      ∀ rounds found, source.statements limit (rounds + 1) c found =
        source.statements limit rounds (c.before mid) (p.stmt :: found) := by
  have hOutcome := statement_outcome limit c
  rw [hStep] at hOutcome
  generalize hResult : Outcome.success s next = outcome at hOutcome
  cases hOutcome with
  | @declaration v ts mid hSpelling hForm hNesting hWritten =>
      cases hResult
      let p : Piece := ⟨.declaration v, ts, .declaration hSpelling, hForm⟩
      refine ⟨p, mid, hNesting, hWritten, fun q rest _ hAlone => ?_, fun rounds found => ?_⟩
      · cases hSpelling
        exact absurd (List.cons.inj hAlone).2 (List.cons_ne_nil _ _)
      · exact statements_declaration hRest hStep
  | @expression e ts mid hSpelling hForm hNesting hWritten hEnd hNone =>
      cases hResult
      have hMid : (c.before mid).rest = mid := Cursor.rest_before hWritten.suffix
      have hWithin : ∀ inner ∈ some e, inner.nesting < limit := by
        intro inner hInner
        obtain rfl := Option.some.inj hInner
        exact hNesting
      by_cases hSemicolon : mid.head? = some ';'
      · obtain ⟨last, hMark⟩ := read_mark (c := c.before mid) (x := ';') (by decide) (by rwa [hMid])
        have hSeparator := separator_of_read (d := limit) hMark
        rw [hMid] at hMark
        rw [Cursor.before_before hWritten.suffix hMark.suffix] at hSeparator
        let p : Piece := ⟨.expression e, ts ++ [.semicolon], .terminated hSpelling, hForm⟩
        refine ⟨p, last, hWithin, hWritten.append (.single hMark), fun q rest _ hAlone => ?_,
          fun rounds found => ?_⟩
        · have hLengths := congrArg List.length hAlone
          have hPositive := List.length_pos_iff.mpr hSpelling.ne_nil
          simp only [p, List.length_append, List.length_singleton] at hLengths
          omega
        · exact statements_expression hRest hStep hSeparator
      · have hSeparator := separator_of_miss (d := limit) (c := c.before mid) (by rwa [hMid])
        let p : Piece := ⟨.expression e, ts, .bare hSpelling, hForm⟩
        refine ⟨p, mid, hWithin, hWritten, fun q rest hNext hAlone name hDeclared => ?_,
          fun rounds found => ?_⟩
        · have hLet : ts = [.word "let".toList] := hAlone
          rw [hDeclared] at hNext
          rw [hLet] at hWritten
          exact hNone _ _ (declaration_of_name hWritten hNext)
        · exact statements_expression hRest hStep hSeparator
  | failure | tooDeep => cases hResult

/-- Everything that can become of the loop. Its rounds never run out, because
each statement takes at least one character. -/
theorem statements_outcome (limit : Nat) (source : Source) (rounds : Nat) (c : Cursor)
    (found : List Stmt) (hRounds : c.rest.length < rounds) :
    StatementsOutcome limit source c found (source.statements limit rounds c found) := by
  induction rounds generalizing c found with
  | zero => exact absurd hRounds (Nat.not_lt_zero _)
  | succ rounds ih =>
      by_cases hRest : c.rest = []
      · rw [statements_end hRest]
        have hNone : StatementsOutcome limit source c found
            (.ok (found.reverse ++ List.map Piece.stmt [])) :=
          .success (by simp) .nil (hRest ▸ .nil _)
        simpa using hNone
      · have hFirst := statement_outcome limit c
        generalize hOutcome : statement.step limit c = outcome at hFirst
        cases outcome with
        | success s next =>
            obtain ⟨p, mid, hWithin, hPiece, hFollow, hRound⟩ :=
              exists_piece source hRest hOutcome
            have hMid : (c.before mid).rest = mid := Cursor.rest_before hPiece.suffix
            have hShorter : mid.length < c.rest.length := hPiece.length_lt p.spelling.ne_nil
            rw [hRound]
            refine .cons p hWithin hPiece hFollow (ih _ _ ?_)
            rw [hMid]
            omega
        | failure reason =>
            cases hFirst with
            | failure hStuck hWritten =>
                rw [statements_failure hRest hOutcome]
                have hNoPieces : Written (Piece.allTokens []) c.rest c.rest := .nil c.rest
                exact .failure (by simp) .nil hNoPieces hStuck hWritten
        | halted cause =>
            cases hFirst with
            | tooDeep hExhausted hWritten =>
                have hNoPieces : Written (Piece.allTokens []) c.rest c.rest := .nil c.rest
                have hHere : StatementsOutcome limit source c found _ :=
                  .tooDeep hNoPieces hExhausted hWritten
                rw [Cursor.before_rest] at hHere
                rwa [statements_tooDeep hRest hOutcome]

end Source

end Scriptlet
