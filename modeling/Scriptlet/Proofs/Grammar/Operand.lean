import Scriptlet.Proofs.Grammar.Spelling

namespace Scriptlet.Grammar

open Scriptlet.Parser

variable {d : Nat} {c : Cursor} {mid rest : List Char} {inner : Parser Expr}

/-- The first character shows whether an operand follows. -/
def StartsOperand (text : List Char) : Prop :=
  ∃ x ∈ text.head?, x.isDigit = true ∨ x = '"' ∨ x = '(' ∨ isNameStart x = true

/-- What an operand may be, as a failure to find one tells it. -/
def operandLabels : Labels :=
  ((((Labels.single "number").union (.single "string")).union (.single "boolean")).union
    (.single (Text.quoted (String.singleton '(')))).union (.single "identifier")

/-! The first character of a token. -/

theorem Token.Read.head_word {text name : List Char} (h : (Token.word name).Read text rest) :
    ∃ x, text.head? = some x ∧ isNameStart x = true := by
  have hValid : IsName name := h.valid
  cases name with
  | nil => exact absurd rfl hValid.ne_nil
  | cons x name => exact ⟨x, h.head?, hValid.1⟩

/-- A letter or an underscore begins nothing but a word. -/
theorem isNameStart_distinct {x : Char} (h : isNameStart x = true) :
    x.isDigit = false ∧ x ≠ '"' ∧ x ≠ '(' := by
  refine ⟨?_, ?_, ?_⟩
  · cases hDigit : x.isDigit with
    | false => rfl
    | true => rw [not_isNameStart_of_isDigit hDigit] at h; exact absurd h (by decide)
  · rintro rfl
    exact absurd h (by decide)
  · rintro rfl
    exact absurd h (by decide)

/-! Literals. -/

/-- Where neither a digit nor a quote nor a truth value stands, there is no
literal. -/
theorem literal_of_miss (hDigit : ∀ x ∈ c.rest.head?, x.isDigit = false)
    (hQuote : c.rest.head? ≠ some '"')
    (hBool : ∀ value rest, ¬ (Token.word (boolWord value)).Read c.rest rest) :
    literal.step d c = .failure ⟨c.offset,
      ((Labels.single "number").union (.single "string")).union (.single "boolean"), false⟩ := by
  simp [literal, choice, tryEach, number_of_miss hDigit, stringLiteral_of_miss hQuote,
    boolean_of_miss hBool, Failure.here, Failure.merge_same]

theorem literal_of_read {value : Literal} {t : Token} (hSpelling : value.Spelling t)
    (h : t.Read c.rest rest) : literal.step d c = .success (.literal value) (c.before rest) := by
  cases hSpelling with
  | int hRun => exact choice_hit [] _ rfl (by simp) (number_of_digits h)
  | float hWhole hFraction => exact choice_hit [] _ rfl (by simp) (number_of_pointed h)
  | string value =>
      refine choice_hit [number] _ rfl (fun q hq => ?_) ?_
      · rw [List.mem_singleton.mp hq]
        refine misses_here (number_of_miss ?_)
        rw [h.head?]
        intro x hx
        obtain rfl : '"' = x := by simpa [Token.text] using hx
        rfl
      · simpa using stringLiteral_of_read h
  | bool value =>
      obtain ⟨x, hx, hStart⟩ := h.head_word
      obtain ⟨hDigit, hQuote, _⟩ := isNameStart_distinct hStart
      refine choice_hit [number, stringLiteral] _ rfl (fun q hq => ?_) (boolean_of_read h)
      simp only [List.mem_cons, List.not_mem_nil, or_false] at hq
      rcases hq with rfl | rfl
      · refine misses_here (number_of_miss ?_)
        rw [hx]
        intro y hy
        obtain rfl : x = y := by simpa using hy
        exact hDigit
      · exact misses_here (stringLiteral_of_miss (by simpa [hx] using hQuote))

/-! Operands. -/

theorem operand_of_literal {value : Literal} {t : Token} (hSpelling : value.Spelling t)
    (h : t.Read c.rest rest) :
    (operand inner).step d c = .success (.literal value) (c.before rest) :=
  choice_hit [] _ rfl (by simp) (literal_of_read hSpelling h)

theorem group_of_miss (h : c.rest.head? ≠ some '(') :
    (group inner).step d c = .failure (.here c (Text.quoted (String.singleton '('))) := by
  simp [group, map_step, between, openParen, symbol_of_miss h, Outcome.map]

theorem operand_of_name {name : String} (hTrue : name ≠ "true") (hFalse : name ≠ "false")
    (h : (Token.word name.toList).Read c.rest rest) :
    (operand inner).step d c = .success (.var name) (c.before rest) := by
  obtain ⟨x, hx, hStart⟩ := h.head_word
  obtain ⟨hDigit, hQuote, hParen⟩ := isNameStart_distinct hStart
  have hLiteral := literal_of_miss (d := d) (c := c) (by simpa [hx] using hDigit)
    (by simpa [hx] using hQuote) fun value _ hRead => by
      have hSame := (h.word_unique hRead).1
      cases value with
      | true => exact hTrue (String.toList_inj.mp hSame)
      | false => exact hFalse (String.toList_inj.mp hSame)
  refine choice_hit [literal, group inner] _ rfl (fun q hq => ?_) ?_
  · simp only [List.mem_cons, List.not_mem_nil, or_false] at hq
    rcases hq with rfl | rfl
    · exact ⟨_, hLiteral, rfl⟩
    · exact misses_here (group_of_miss (by simpa [hx] using hParen))
  · rw [varIdentifier, map_step, identifier_of_read h, String.ofList_toList]
    rfl

theorem operand_of_word {name : String} (h : (Token.word name.toList).Read c.rest rest) :
    (operand inner).step d c = .success (.ofWord name) (c.before rest) := by
  rcases Expr.ofWord_cases name with rfl | rfl | ⟨hTrue, hFalse, hVar⟩
  · exact operand_of_literal (.bool true) h
  · exact operand_of_literal (.bool false) h
  · rw [hVar]
    exact operand_of_name hTrue hFalse h

theorem operand_of_miss (h : ¬ StartsOperand c.rest) :
    (operand inner).step d c = .failure ⟨c.offset, operandLabels, false⟩ := by
  have hDigit : ∀ x ∈ c.rest.head?, x.isDigit = false := fun x hx =>
    Bool.eq_false_iff.mpr fun hBad => h ⟨x, hx, .inl hBad⟩
  have hQuote : c.rest.head? ≠ some '"' := fun hBad => h ⟨'"', hBad, .inr (.inl rfl)⟩
  have hParen : c.rest.head? ≠ some '(' := fun hBad => h ⟨'(', hBad, .inr (.inr (.inl rfl))⟩
  have hName : ∀ x ∈ c.rest.head?, isNameStart x = false := fun x hx =>
    Bool.eq_false_iff.mpr fun hBad => h ⟨x, hx, .inr (.inr (.inr hBad))⟩
  have hLiteral := literal_of_miss (d := d) hDigit hQuote fun value rest hRead => by
    obtain ⟨x, hx, hStart⟩ := hRead.head_word
    rw [hName x hx] at hStart
    exact absurd hStart (by decide)
  simp [operand, choice, tryEach, hLiteral, group_of_miss hParen, varIdentifier, map_step,
    identifier_of_miss hName, Outcome.map, Failure.here, Failure.merge_same, operandLabels]

theorem operand_of_open {body : List Char} (h : c.rest = '"' :: body) (hBody : '"' ∉ body) :
    (operand inner).step d c =
      .failure ⟨(c.before []).offset, .single (Text.quoted (String.singleton '"')), true⟩ := by
  have hNumber : number.step d c = .failure (.here c "number") :=
    number_of_miss fun x hx => by
      obtain rfl : '"' = x := by simpa [h] using hx
      rfl
  simp [operand, literal, choice, tryEach, hNumber, stringLiteral_of_open h hBody, Failure.here]

/-! What stands between two marks. -/

theorem Token.Read.offset_lt {t : Token} (h : t.Read c.rest mid) : c.offset < (c.before mid).offset :=
  (Cursor.offset_lt_before h.suffix).mpr h.length_lt

section Enclosed

variable {α : Type} {p : Parser α} {x y : Char} (hOpen : (Token.mark x).Read c.rest mid)

include hOpen

theorem enclosed_of_success {value : α} {reached : Cursor}
    (h : p.step d (c.before mid) = .success value reached)
    (hClose : (Token.mark y).Read reached.rest rest) :
    (between (symbol x) (symbol y) p).step d c = .success value (reached.before rest) := by
  simp [between, symbol_of_read hOpen, h, symbol_of_read hClose]

theorem enclosed_of_unclosed {value : α} {reached : Cursor}
    (h : p.step d (c.before mid) = .success value reached) (hMiss : reached.rest.head? ≠ some y)
    (hMoved : c.offset < reached.offset) :
    (between (symbol x) (symbol y) p).step d c =
      .failure ⟨reached.offset, .single (Text.quoted (String.singleton y)), true⟩ := by
  simp [between, symbol_of_read hOpen, h, symbol_of_miss hMiss, Failure.later, Failure.here, hMoved]

theorem enclosed_of_failure {reason : Failure} (h : p.step d (c.before mid) = .failure reason) :
    (between (symbol x) (symbol y) p).step d c = .failure { reason with consumed := true } := by
  simp [between, symbol_of_read hOpen, h, Failure.later, hOpen.offset_lt]

theorem enclosed_of_halted {cause : Halt} (h : p.step d (c.before mid) = .halted cause) :
    (between (symbol x) (symbol y) p).step d c = .halted cause := by
  simp [between, symbol_of_read hOpen, h]

end Enclosed

/-! Groups. -/

/-- An opening parenthesis is no literal. -/
theorem literal_misses_of_openParen (h : Token.openParen.Read c.rest mid) : Misses literal d c := by
  have hHead : c.rest.head? = some '(' := h.head?
  refine ⟨_, literal_of_miss (fun x hx => ?_) (by simp [hHead]) fun value _ hRead => ?_, rfl⟩
  · obtain rfl : '(' = x := by simpa [hHead] using hx
    rfl
  · obtain ⟨x, hx, hStart⟩ := hRead.head_word
    obtain rfl : '(' = x := by simpa [hHead] using hx
    exact absurd hStart (by decide)

section Group

variable (hOpen : Token.openParen.Read c.rest mid)

include hOpen

theorem operand_of_group {value : Expr} {next : Cursor}
    (h : (between openParen closeParen inner).step d c = .success value next) :
    (operand inner).step d c = .success (.parens value) next := by
  refine choice_hit [literal] _ rfl (fun q hq => ?_) ?_
  · rw [List.mem_singleton.mp hq]
    exact literal_misses_of_openParen hOpen
  · simp [group, map_step, h, Outcome.map]

/-- A failure of a group that has been opened is passed on. -/
theorem operand_of_group_failure {reason : Failure}
    (h : (between openParen closeParen inner).step d c = .failure reason)
    (hCommitted : reason.consumed = true) : (operand inner).step d c = .failure reason := by
  obtain ⟨missed, hMiss, hFree⟩ := literal_misses_of_openParen (d := d) hOpen
  simp [operand, choice, tryEach, hMiss, hFree, group, map_step, h, hCommitted, Outcome.map]

theorem operand_of_group_halted {cause : Halt}
    (h : (between openParen closeParen inner).step d c = .halted cause) :
    (operand inner).step d c = .halted cause := by
  obtain ⟨missed, hMiss, hFree⟩ := literal_misses_of_openParen (d := d) hOpen
  simp [operand, choice, tryEach, hMiss, hFree, group, map_step, h, Outcome.map]

end Group

end Scriptlet.Grammar
