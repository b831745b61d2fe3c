import Scriptlet.Grammar.Production
import Scriptlet.Proofs.Entry
import Scriptlet.Proofs.Parsing.Halting

namespace Scriptlet

namespace Grammar

open Scriptlet.Parser

/-! No production gives up on anything but nesting. -/

theorem steady_whitespace : Steady whitespace := takes_blank.steady_many.map _

theorem steady_lexeme {α : Type} {p : Parser α} (hp : Steady p) : Steady (lexeme p) :=
  hp.keepLeft steady_whitespace

theorem steady_symbol (x : Char) : Steady (symbol x) := steady_lexeme (steady_char x)

theorem steady_keyword (word : String) : Steady (keyword word) := by
  have hEnd := takes_namePart.steady.notFollowedBy "identifier character"
  exact steady_lexeme (((steady_string word).keepLeft hEnd).attempt.label _)

theorem steady_integer : Steady integer := (steady_lexeme takes_digit.steady_many1).map _

theorem steady_floatLiteral : Steady floatLiteral := by
  have hDigits := takes_digit.steady_many1.triple (steady_char '.') takes_digit.steady_many
  exact (steady_lexeme hDigits).map _

theorem steady_number : Steady number :=
  ((steady_floatLiteral.attempt.orElse steady_integer).map _).label _

theorem steady_stringLiteral : Steady stringLiteral := by
  have hBody := (steady_char '"').keepRight takes_stringCharacter.steady_many
  exact ((hBody.keepLeft (steady_lexeme (steady_char '"'))).map _).label _

theorem steady_boolean : Steady boolean := by
  have hWord : ∀ (word : String) (value : Bool), Steady (keyword word *> Parser.pure value) :=
    fun word value => (steady_keyword word).keepRight (steady_pure value)
  exact (((hWord "true" true).orElse (hWord "false" false)).map _).label _

theorem steady_literal : Steady literal := by
  refine steady_choice steady_number fun q hq => ?_
  simp only [List.mem_cons, List.not_mem_nil, or_false] at hq
  rcases hq with rfl | rfl
  · exact steady_stringLiteral
  · exact steady_boolean

theorem steady_identifier : Steady identifier := by
  have hName := takes_nameStart.steady.pair takes_namePart.steady_many
  exact (steady_lexeme (hName.map _)).label _

theorem steady_varIdentifier : Steady varIdentifier := steady_identifier.map _

theorem steady_typeName : Steady typeName := by
  have hWord : ∀ type : TypeName, Steady (typeWord type) :=
    fun type => (steady_keyword type.word).keepRight (steady_pure type)
  refine (steady_choice (hWord _) fun q hq => ?_).label _
  obtain ⟨type, _, rfl⟩ := List.mem_map.mp hq
  exact hWord type

theorem steady_operator : Steady operator := by
  have hSymbol : ∀ op : Operator, Steady (operatorSymbol op) :=
    fun op => (steady_string op.symbol).keepRight (steady_pure op)
  refine (steady_lexeme (steady_choice (hSymbol _) fun q hq => ?_)).label _
  obtain ⟨op, _, rfl⟩ := List.mem_map.mp hq
  exact hSymbol op

/-- The loop over operators has no check of its own; its rounds suffice because
operators and operands are not empty. -/
theorem steady_expression : Steady expression := by
  intro d c cause h
  have hOutcome := expression_outcome d c
  rw [h] at hOutcome
  cases hOutcome
  rfl

theorem steady_group {inner : Parser Expr} (hInner : Steady inner) : Steady (group inner) :=
  ((steady_symbol '(').between (steady_symbol ')') hInner).map _

theorem steady_operand {inner : Parser Expr} (hInner : Steady inner) : Steady (operand inner) := by
  refine steady_choice steady_literal fun q hq => ?_
  simp only [List.mem_cons, List.not_mem_nil, or_false] at hq
  rcases hq with rfl | rfl
  · exact steady_group hInner
  · exact steady_varIdentifier

theorem steady_typeAnnotation : Steady typeAnnotation :=
  ((steady_symbol ':').keepRight steady_typeName).optional

theorem steady_initializer : Steady initializer := by
  have hValue := ((steady_symbol '=').keepRight steady_expression).keepLeft (steady_symbol ';')
  exact (hValue.map _).orElse ((steady_symbol ';').keepRight (steady_pure none))

theorem steady_declaration : Steady declaration := by
  have hName := (steady_keyword "let").keepRight steady_identifier
  exact (hName.triple steady_typeAnnotation steady_initializer).map _

theorem steady_statement : Steady statement :=
  (steady_declaration.map _).attempt.orElse (steady_expression.map _)

theorem steady_separator : Steady statementSeparator := (steady_symbol ';').optional

end Grammar

open Grammar

theorem Production.steady (production : Production) : production.parser.Steady := by
  cases production with
  | statement => exact steady_statement.map _
  | expression => exact steady_expression.map _
  | declaration => exact steady_declaration.map _
  | typeName => exact steady_typeName.map _
  | whitespace => exact steady_whitespace.map _
  | integer => exact steady_integer.map _
  | floatLiteral => exact steady_floatLiteral.map _
  | number => exact steady_number.map _
  | stringLiteral => exact steady_stringLiteral.map _
  | boolean => exact steady_boolean.map _
  | literal => exact steady_literal.map _
  | identifier => exact steady_identifier.map _
  | varIdentifier => exact steady_varIdentifier.map _
  | operator => exact steady_operator.map _
  | parens => exact (steady_group steady_expression).map _
  | term => exact (steady_operand steady_expression).map _
  | typeAnnotation => exact steady_typeAnnotation.map _
  | initializer => exact steady_initializer.map _
  | statementSeparator => exact steady_separator.map _

/-! Progress of the loop over the statements. -/

/-- A place reached from within a text is a place of the text. -/
theorem Cursor.place_before {text rest : List Char} {pos : Nat} (h : rest <:+ text.drop pos)
    (hPos : pos ≤ text.length) :
    (place text pos).before rest = place text ((place text pos).before rest).offset ∧
      ((place text pos).before rest).offset = text.length - rest.length := by
  have hLength := h.length_le
  rw [List.length_drop] at hLength
  have hText : (place text pos).rest.length = text.length - pos := List.length_drop
  have hOffset : ((place text pos).before rest).offset = pos + (text.length - pos - rest.length) := by
    rw [offset_before, hText]
    rfl
  refine ⟨?_, by omega⟩
  rw [hOffset, before, hText]
  exact place_skip (by omega)

/-- The characters that a statement takes bring the cursor forward. -/
theorem Grammar.statement_moves {limit pos : Nat} {text : List Char} {s : Stmt} {next : Cursor}
    (hPos : pos < text.length) (h : statement.runWithin limit text pos = .success s next) :
    pos < next.offset ∧ next.offset ≤ text.length ∧ next = Cursor.place text next.offset := by
  obtain ⟨rest, rfl, hSuffix, hShorter⟩ := statement_reaches h
  obtain ⟨hPlace, hOffset⟩ := Cursor.place_before hSuffix (by omega)
  have hLength : (Cursor.place text pos).rest.length = text.length - pos := List.length_drop
  rw [hLength] at hShorter
  exact ⟨by omega, by omega, hPlace⟩

/-- A separator is always found, if only an empty one, and stays in the text. -/
theorem Grammar.separator_moves (limit : Nat) {pos : Nat} {text : List Char}
    (hPos : pos ≤ text.length) :
    ∃ separator next, statementSeparator.runWithin limit text pos = .success separator next ∧
      pos ≤ next.offset ∧ next.offset ≤ text.length ∧ next = Cursor.place text next.offset := by
  obtain ⟨separator, rest, hSeparator, hSuffix⟩ := separator_reaches limit (Cursor.place text pos)
  obtain ⟨hPlace, hOffset⟩ := Cursor.place_before hSuffix hPos
  have hLength : (Cursor.place text pos).rest.length = text.length - pos := List.length_drop
  have hShorter := hSuffix.length_le
  exact ⟨separator, _, hSeparator, by omega, by omega, hPlace⟩

/-- No fault of the program itself comes out of a source. -/
theorem Source.parseWithin_ok_or_rejected (limit : Nat) (source : Source) (entry : Entry) :
    (∃ node, source.parseWithin limit entry = .ok node) ∨
      ∃ error, source.parseWithin limit entry = .error (.rejected error) := by
  generalize h : source.parseWithin limit entry = result
  obtain ⟨_, _, _, _, _, hOutcome⟩ := exists_parseOutcome h
  cases hOutcome with
  | accepted => exact .inl ⟨_, rfl⟩
  | rejected | tooDeep => exact .inr ⟨_, rfl⟩

/-- What comes out of any source is a tree or an error of the text. No production
repeats something empty or does anything else than give up on nesting; no digit
run is too long to be converted; and the loop over the statements moves on with
every statement and stays within the source. -/
theorem parse_terminates :
    (∀ (limit : Nat) (source : Source) (entry : Entry),
      (∃ node, source.parseWithin limit entry = .ok node) ∨
        ∃ error, source.parseWithin limit entry = .error (.rejected error)) ∧
    (∀ (production : Production) (limit : Nat) (text : List Char) (pos : Nat) (cause : Halt),
      production.parser.runWithin limit text pos = .halted cause → cause = .tooDeep) ∧
    (∀ (limit : Nat) (c : Cursor) (run rest : List Char), (Token.digits run).Read c.rest rest →
      ∃ n, Number.decimalValueWithin? Number.conversionLimit run = some n ∧
        integer.step limit c = .success (.int n) (c.before rest)) ∧
    (∀ (limit : Nat) (text : List Char) (pos : Nat) (s : Stmt) (next : Cursor),
      pos < text.length → statement.runWithin limit text pos = .success s next →
        pos < next.offset ∧ next.offset ≤ text.length ∧ next = Cursor.place text next.offset) ∧
    (∀ (limit : Nat) (text : List Char) (pos : Nat), pos ≤ text.length →
      ∃ separator next, statementSeparator.runWithin limit text pos = .success separator next ∧
        pos ≤ next.offset ∧ next.offset ≤ text.length ∧ next = Cursor.place text next.offset) := by
  refine ⟨Source.parseWithin_ok_or_rejected, fun production limit text pos => ?_,
    fun limit c run rest h => ?_, fun limit text pos s next hPos h => statement_moves hPos h,
    fun limit text pos hPos => separator_moves limit hPos⟩
  · exact production.steady limit (Cursor.place text pos)
  · exact ⟨_, Number.decimalValueWithin?_eq (by decide) run, integer_of_digits h⟩

/-- A statement of one character and its separator, a digit, and a text that is
too deep for no depth at all. -/
theorem parse_terminates_name :
    (∀ cause, Production.expression.parser.runWithin 0 [] 0 = .halted cause → cause = .tooDeep) ∧
      Number.decimalValueWithin? Number.conversionLimit ['7'] = some 7 ∧
      (Cursor.place "x;".toList 1).offset ≤ "x;".toList.length ∧
      ∃ separator next, statementSeparator.runWithin 1 "x;".toList 1 = .success separator next ∧
        1 ≤ next.offset := by
  obtain ⟨_, hHalts, hDigits, hStatement, hSeparator⟩ := parse_terminates
  have hDigit : IsDigits ['7'] := by decide
  have hRead : (Token.digits ['7']).Read (Cursor.place ['7'] 0).rest [] :=
    @Token.Read.intro (.digits ['7']) [] [] hDigit (by decide) (by simp [NoBlank])
      (by simp [Token.Ends])
  have hName : statement.runWithin 1 "x;".toList 0 =
      .success (.expression (.var "x")) (Cursor.place "x;".toList 1) := by
    rfl
  refine ⟨hHalts .expression 0 [] 0, ?_, ?_, ?_⟩
  · obtain ⟨n, hValue, hInteger⟩ := hDigits 1 _ _ _ hRead
    rw [hValue]
    injection hInteger with hSame
    injection hSame with hSame
    rw [← hSame]
    rfl
  · exact (hStatement 1 _ 0 _ _ (by decide) hName).2.1
  · obtain ⟨separator, next, hNext, hMoved, _⟩ := hSeparator 1 "x;".toList 1 (by decide)
    exact ⟨separator, next, hNext, hMoved⟩

end Scriptlet
