import Scriptlet.Proofs.Grammar.Terminal

namespace Scriptlet.Grammar

open Scriptlet.Parser

variable {d : Nat} {c : Cursor} {rest : List Char}

/-! Numbers. -/

theorem Token.ends_digits {run text : List Char} :
    (Token.digits run).Ends text ↔ ∀ x ∈ text.head?, x.isDigit = false ∧ x ≠ '.' := by
  simp [Token.Ends, Token.endsBefore]

theorem Token.ends_pointed {whole fraction text : List Char} :
    (Token.pointed whole fraction).Ends text ↔ ∀ x ∈ text.head?, x.isDigit = false := by
  simp [Token.Ends, Token.endsBefore]

theorem floatLiteral_misses {reason : Failure}
    (h : (triple (many1 digit) (char '.') (many digit)).step d c = .failure reason) :
    Misses (attempt floatLiteral) d c := by
  have hFloat : floatLiteral.step d c = .failure reason := by
    rw [floatLiteral, map_step, lexeme_of_failure h]
    rfl
  exact attempt_misses hFloat

/-- A run of digits is a whole number, whatever ends it. -/
theorem integer_of_run {run blanks : List Char} (h : c.rest = run ++ (blanks ++ rest))
    (hDigits : IsDigits run) (hBlanks : IsBlank blanks) (hRest : NoBlank rest)
    (hEnds : ∀ x ∈ (blanks ++ rest).head?, x.isDigit = false) :
    integer.step d c = .success (.int (Number.decimalValue run)) (c.skip (run.length + blanks.length)) := by
  have hRun := takes_digit.many1_run (d := d) hDigits.1 h hDigits.2 hEnds
  have hTail : (c.skip run.length).rest = blanks ++ rest := by simp [h]
  rw [integer, map_step, lexeme_of_success hRun hTail hBlanks hRest, Cursor.before_eq_skip hTail,
    Cursor.skip_skip]
  rfl

theorem integer_of_digits {run : List Char} (h : (Token.digits run).Read c.rest rest) :
    integer.step d c = .success (.int (Number.decimalValue run)) (c.before rest) := by
  obtain ⟨blanks, hBlanks, hText, hEnds⟩ := h.split
  have hRun : c.rest = run ++ (blanks ++ rest) := hText
  have hWord : c.rest = (run ++ blanks) ++ rest := by rw [hRun, List.append_assoc]
  rw [integer_of_run hRun h.valid hBlanks h.noBlank fun x hx => (Token.ends_digits.mp hEnds x hx).1,
    Cursor.before_eq_skip hWord, List.length_append]

theorem integer_of_miss (h : ∀ x ∈ c.rest.head?, x.isDigit = false) :
    integer.step d c = .failure (.here c "digit") := by
  have hDigit : digit.step d c = .failure (.here c "digit") := satisfy_miss h
  have hDigits : (many1 digit).step d c = .failure (.here c "digit") := by
    simp [many1, Parser.map, pair, hDigit, Outcome.map]
  rw [integer, map_step, lexeme_of_failure hDigits]
  rfl

/-- The attempt to find a point leaves no trace when there is none. -/
theorem number_of_digits {run : List Char} (h : (Token.digits run).Read c.rest rest) :
    number.step d c = .success (.literal (.int (Number.value run))) (c.before rest) := by
  obtain ⟨blanks, _, hText, hEnds⟩ := h.split
  have hDigits : IsDigits run := h.valid
  have hNext := Token.ends_digits.mp hEnds
  have hRun := takes_digit.many1_run (d := d) hDigits.1 hText hDigits.2 fun x hx => (hNext x hx).1
  have hPoint : (char '.').step d (c.skip run.length) =
      .failure (.here (c.skip run.length) (Text.quoted (String.singleton '.'))) := by
    refine satisfy_miss fun x hx => ?_
    rw [Cursor.rest_skip, hText, Token.text, List.drop_left] at hx
    simpa using (hNext x hx).2
  have hTriple : (triple (many1 digit) (char '.') (many digit)).step d c =
      .failure (.later c (c.skip run.length)
        (.here (c.skip run.length) (Text.quoted (String.singleton '.')))) := by
    simp [triple, pair, hRun, hPoint]
  have hInteger : integer.step d c = .success (.int (Number.value run)) (c.before rest) := by
    rw [integer_of_digits h, Number.decimalValue_eq_value]
  have hChoice : (attempt floatLiteral <|> integer).step d c =
      .success (.int (Number.value run)) (c.before rest) := by
    refine choice_hit [attempt floatLiteral] [] rfl (fun q hq => ?_) hInteger
    rw [List.mem_singleton.mp hq]
    exact floatLiteral_misses hTriple
  exact label_success (by rw [map_step, hChoice]; rfl)

theorem number_of_pointed {whole fraction : List Char}
    (h : (Token.pointed whole fraction).Read c.rest rest) :
    number.step d c = .success (.literal (.float (pointed whole fraction))) (c.before rest) := by
  obtain ⟨blanks, _, hText, hEnds⟩ := h.split
  have hValid : IsDigits whole ∧ ∀ x ∈ fraction, x.isDigit = true := h.valid
  have hNext := Token.ends_pointed.mp hEnds
  have hSpelled : c.rest = whole ++ ('.' :: (fraction ++ (blanks ++ rest))) := by
    simp [hText, Token.text]
  have hWhole := takes_digit.many1_run (d := d) hValid.1.1 hSpelled hValid.1.2 fun x hx => by
    obtain rfl : '.' = x := by simpa using hx
    rfl
  have hAfter : (c.skip whole.length).rest = '.' :: (fraction ++ (blanks ++ rest)) := by
    rw [Cursor.rest_skip, hSpelled, List.drop_left]
  have hPoint : (char '.').step d (c.skip whole.length) = .success '.' ((c.skip whole.length).skip 1) :=
    satisfy_hit hAfter (by decide)
  have hTail : ((c.skip whole.length).skip 1).rest = fraction ++ (blanks ++ rest) := by
    rw [Cursor.rest_skip, hAfter]
    rfl
  have hFraction := takes_digit.many_run (d := d) hTail hValid.2 hNext
  have hTriple : (triple (many1 digit) (char '.') (many digit)).step d c =
      .success (whole, '.', fraction) (c.skip (Token.pointed whole fraction).text.length) := by
    simp only [triple, pair, hWhole, hPoint, hFraction]
    simp [Cursor.skip_skip, Token.text, Nat.add_comm, Nat.add_left_comm]
  have hFloat : floatLiteral.step d c = .success (.float (pointed whole fraction)) (c.before rest) := by
    rw [floatLiteral, map_step, lexeme_of_read h hTriple]
    rfl
  have hChoice : (attempt floatLiteral <|> integer).step d c =
      .success (.float (pointed whole fraction)) (c.before rest) :=
    choice_hit [] [integer] rfl (by simp) (attempt_of_success hFloat)
  exact label_success (by rw [map_step, hChoice]; rfl)

theorem number_of_miss (h : ∀ x ∈ c.rest.head?, x.isDigit = false) :
    number.step d c = .failure (.here c "number") := by
  obtain ⟨reason, hMiss, _⟩ := takes_digit.many1_miss (d := d) h
  have hTriple : (triple (many1 digit) (char '.') (many digit)).step d c = .failure reason := by
    simp [triple, pair, hMiss]
  refine Misses.label (Misses.map (choice_misses (floatLiteral_misses hTriple) fun q hq => ?_) _) _
  rw [List.mem_singleton.mp hq]
  exact misses_here (integer_of_miss h)

/-- A digit begins a number, with or without a point. -/
theorem read_number {x : Char} (hx : x.isDigit = true) (text : List Char) :
    (∃ run rest, (Token.digits run).Read (x :: text) rest) ∨
      ∃ whole fraction rest, (Token.pointed whole fraction).Read (x :: text) rest := by
  obtain ⟨run, tail, rfl, hRun, hTail⟩ := exists_run Char.isDigit text
  have hDigits : IsDigits (x :: run) := by
    refine ⟨List.cons_ne_nil _ _, fun y hy => ?_⟩
    rcases List.mem_cons.mp hy with rfl | hy
    · exact hx
    · exact hRun y hy
  by_cases hPoint : tail.head? = some '.'
  · obtain ⟨after, rfl⟩ := List.head?_eq_some_iff.mp hPoint
    obtain ⟨fraction, others, rfl, hFraction, hOthers⟩ := exists_run Char.isDigit after
    obtain ⟨rest, hRead⟩ := Token.exists_read (.pointed (x :: run) fraction) others
      ⟨hDigits, hFraction⟩ (Token.ends_pointed.mpr hOthers)
    refine .inr ⟨x :: run, fraction, rest, ?_⟩
    simpa [Token.text] using hRead
  · refine .inl ⟨x :: run, Token.exists_read (.digits (x :: run)) tail hDigits ?_⟩
    refine Token.ends_digits.mpr fun y hy => ⟨hTail y hy, ?_⟩
    rintro rfl
    exact hPoint hy

/-! Strings. -/

theorem mem_stringBody {body : List Char} (h : '"' ∉ body) : ∀ x ∈ body, (x != '"') = true := by
  intro x hx
  have hDifferent : x ≠ '"' := by
    rintro rfl
    exact h hx
  simpa using hDifferent

/-- The opening quote and everything up to the next one. -/
theorem stringBody {body tail : List Char} (h : c.rest = '"' :: (body ++ tail)) (hBody : '"' ∉ body)
    (hTail : ∀ x ∈ tail.head?, (x != '"') = false) :
    (char '"' *> many (noneOf "\"" "string character")).step d c =
      .success body ((c.skip 1).skip body.length) := by
  have hOpening : (char '"').step d c = .success '"' (c.skip 1) := satisfy_hit h (by decide)
  have hInside : (c.skip 1).rest = body ++ tail := by simp [h]
  have hMany := takes_stringCharacter.many_run (d := d) hInside (mem_stringBody hBody) hTail
  simp [keepRight_step, keepRight, hOpening, hMany]

theorem stringLiteral_of_read {body : List Char} (h : (Token.quotation body).Read c.rest rest) :
    stringLiteral.step d c = .success (.literal (.string (String.ofList body))) (c.before rest) := by
  obtain ⟨run, hRun, hText, _⟩ := h.split
  have hSpelled : c.rest = '"' :: (body ++ ('"' :: (run ++ rest))) := by simp [hText, Token.text]
  have hBody := stringBody (d := d) hSpelled h.valid (by simp)
  have hEnd : ((c.skip 1).skip body.length).rest = '"' :: (run ++ rest) := by simp [hSpelled]
  have hClosing : (char '"').step d ((c.skip 1).skip body.length) =
      .success '"' (((c.skip 1).skip body.length).skip 1) := satisfy_hit hEnd (by decide)
  have hAfter : (((c.skip 1).skip body.length).skip 1).rest = run ++ rest := by simp [hSpelled]
  have hLexeme := lexeme_of_success hClosing hAfter hRun h.noBlank
  have hSame : (((c.skip 1).skip body.length).skip 1).before rest = c.before rest := by
    have hWhole : c.rest = (('"' :: body ++ ['"']) ++ run) ++ rest := by simp [hSpelled]
    rw [Cursor.before_eq_skip hAfter, Cursor.before_eq_skip hWhole]
    simp [Cursor.skip_skip, Nat.add_comm, Nat.add_left_comm]
  refine label_success ?_
  simp [map_step, keepLeft_step, keepLeft, hBody, hLexeme, hSame, Outcome.map]

/-- A string that is never closed is an error at the end of the text. -/
theorem stringLiteral_of_open {body : List Char} (h : c.rest = '"' :: body) (hBody : '"' ∉ body) :
    stringLiteral.step d c =
      .failure ⟨(c.before []).offset, .single (Text.quoted (String.singleton '"')), true⟩ := by
  have hSpelled : c.rest = '"' :: (body ++ []) := by simp [h]
  have hInside := stringBody (d := d) hSpelled hBody (by simp)
  have hClosing : (lexeme (char '"')).step d ((c.skip 1).skip body.length) =
      .failure (.here ((c.skip 1).skip body.length) (Text.quoted (String.singleton '"'))) :=
    lexeme_of_failure (satisfy_miss (by simp [h]))
  have hOffset : (c.before []).offset = c.offset + 1 + body.length := by
    simp only [Cursor.offset_before, h, List.length_cons, List.length_nil]
    omega
  have hMoved : c.offset < c.offset + 1 + body.length := by omega
  simp [stringLiteral, label, map_step, keepLeft_step, keepLeft, hInside, hClosing, Outcome.map,
    Failure.later, Failure.here, hOffset, hMoved]

theorem stringLiteral_of_miss (h : c.rest.head? ≠ some '"') :
    stringLiteral.step d c = .failure (.here c "string") := by
  have hOpening : (char '"').step d c = .failure (.here c (Text.quoted (String.singleton '"'))) := by
    refine satisfy_miss fun x hx => ?_
    have hDifferent : x ≠ '"' := by
      rintro rfl
      exact h hx
    simpa using hDifferent
  exact ((((misses_here hOpening).keepRight _).keepLeft _).map _).label _

theorem read_quotation (text : List Char) :
    (∃ body rest, (Token.quotation body).Read ('"' :: text) rest) ∨ '"' ∉ text := by
  obtain ⟨body, tail, rfl, hBody, hTail⟩ := exists_run (fun x => x != '"') text
  have hBody : '"' ∉ body := fun hQuote => by simpa using hBody '"' hQuote
  cases tail with
  | nil => exact .inr (by simpa using hBody)
  | cons x tail =>
      obtain rfl : x = '"' := by simpa using hTail
      obtain ⟨rest, hRead⟩ := Token.exists_read (.quotation body) tail hBody fun _ _ => rfl
      exact .inl ⟨body, rest, by simpa [Token.text] using hRead⟩

end Scriptlet.Grammar
