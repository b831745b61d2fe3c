import Scriptlet.Proofs.Alternatives
import Scriptlet.Proofs.Grammar.Recognition

namespace Scriptlet

open Grammar Scriptlet.Parser

variable {first : String} {others : List String} {text rest : List Char} {pos limit : Nat}

/-- A word that stands at a place lies within the text. -/
theorem Cursor.place_skip_of_prefix {word : List Char} (hWord : word ≠ [])
    (h : word <+: text.drop pos) :
    (place text pos).skip word.length = place text (pos + word.length) := by
  have hPositive := List.length_pos_iff.mpr hWord
  have hLength := h.length_le
  rw [List.length_drop] at hLength
  exact place_skip (by omega)

namespace Parser

/-- The parser that tries tokens in a given order, whatever follows them. -/
def tokenChoice (first : String) (others : List String) : Parser String :=
  choice (string first *> Parser.pure first)
    (others.map fun token => string token *> Parser.pure token)

theorem tokenChoice_eq (first : String) (others : List String) :
    tokenChoice first others = choice (spelled id first) (others.map (spelled id)) := rfl

section Ordered

variable (hOrder : LongestFirst (first :: others))

include hOrder

theorem tokenChoice_success_iff {token : String} {next : Cursor} :
    (tokenChoice first others).runWithin limit text pos = .success token next ↔
      IsLongest (first :: others) (text.drop pos) token ∧
        next = Cursor.place text (pos + token.length) := by
  have hFamily : LongestFirst ((first :: others).map id) := by rwa [List.map_id]
  have hPlace (hLongest : IsLongest (first :: others) (text.drop pos) token) :
      (Cursor.place text pos).skip token.toList.length = Cursor.place text (pos + token.length) := by
    rw [Cursor.place_skip_of_prefix (hOrder.ne_nil hLongest.mem) hLongest.stands,
      String.length_toList]
  rw [runWithin, tokenChoice_eq, choice_spelled_iff hFamily, List.map_id]
  constructor
  · rintro ⟨_, hLongest, rfl⟩
    exact ⟨hLongest, hPlace hLongest⟩
  · rintro ⟨hLongest, rfl⟩
    exact ⟨hLongest.mem, hLongest, (hPlace hLongest).symm⟩

theorem tokenChoice_succeeds_iff :
    (∃ token next, (tokenChoice first others).runWithin limit text pos = .success token next) ↔
      ∃ token ∈ first :: others, token.toList <+: text.drop pos := by
  simp only [tokenChoice_success_iff hOrder]
  constructor
  · rintro ⟨token, next, hLongest, _⟩
    exact ⟨token, hLongest.mem, hLongest.stands⟩
  · intro hSome
    have hFamily : LongestFirst ((first :: others).map id) := by rwa [List.map_id]
    obtain ⟨_, token, _, _, _, hLongest⟩ := hFamily.exists_first hSome
    rw [List.map_id] at hLongest
    exact ⟨token, _, hLongest, rfl⟩

end Ordered

/-- Where none of the tokens stands, each of them is reported as expected there. -/
theorem tokenChoice_failure (hNone : ∀ token ∈ first :: others, ¬ token.toList <+: text.drop pos) :
    ∃ reason, (tokenChoice first others).runWithin limit text pos = .failure reason ∧
      reason.offset = pos ∧ reason.consumed = false ∧
      ∀ label, label ∈ reason.expected.toList ↔
        ∃ token ∈ first :: others, label = Text.quoted token := by
  let start := Cursor.place text pos
  have hStep : ∀ token ∈ first :: others, (spelled id token).step limit start =
      .failure (.here start (Text.quoted token)) :=
    fun token hToken => spelled_miss (hNone token hToken)
  have hMisses : ∀ p ∈ spelled id first :: others.map (spelled id), Misses p limit start := by
    rw [← List.map_cons, List.forall_mem_map]
    exact fun token hToken => misses_here (hStep token hToken)
  obtain ⟨all, hAll, hFurthest⟩ := choice_furthest hMisses
  have hTokens : all.IsFurthest fun reason =>
      ∃ token ∈ first :: others, reason = .here start (Text.quoted token) := by
    refine hFurthest.congr fun reason => ?_
    simp only [← List.map_cons, List.mem_map, exists_exists_and_eq_and]
    refine exists_congr fun token => and_congr_right fun hToken => ?_
    rw [hStep token hToken, Outcome.failure.injEq, eq_comm]
  obtain ⟨_, ⟨token, hToken, rfl⟩, hReached⟩ := hTokens.reached
  refine ⟨all, hAll, hReached.symm, hTokens.uncommitted, fun label => ?_⟩
  rw [hTokens.expected]
  constructor
  · rintro ⟨_, ⟨other, hOther, rfl⟩, _, hLabel⟩
    exact ⟨other, hOther, Labels.mem_single.mp hLabel⟩
  · rintro ⟨other, hOther, rfl⟩
    exact ⟨_, ⟨other, hOther, rfl⟩, hReached, Labels.mem_single.mpr rfl⟩

end Parser

namespace Grammar

/-- After a token come the blanks behind it, all of them. -/
theorem Token.Read.before_place {t : Token} (h : t.Read (text.drop pos) rest) :
    (Cursor.place text pos).before rest = Cursor.place text (pos + t.text.length +
      ((text.drop (pos + t.text.length)).takeWhile isBlank).length) := by
  obtain ⟨run, hRun, hText, _⟩ := h.split
  have hWord : (Cursor.place text pos).rest = (t.text ++ run) ++ rest := by
    rw [List.append_assoc]
    exact hText
  rw [Cursor.before_eq_skip hWord, List.length_append,
    place_behind_blanks h.valid.text_ne_nil hText hRun h.noBlank]

/-- An operator can be read where it is the longest one that stands there. -/
theorem exists_read_operator_iff {op : Operator} :
    (∃ rest, (Token.operator op).Read text rest) ↔
      op.symbol.toList <+: text ∧
        ∀ other : Operator, other.symbol.toList <+: text → other.symbol.length ≤ op.symbol.length := by
  constructor
  · rintro ⟨rest, h⟩
    obtain ⟨run, _, rfl, hEnds⟩ := h.split
    have hLongest := Token.ends_operator_iff_isLongest.mp hEnds
    exact ⟨hLongest.stands, fun other => hLongest.longest _ (mem_operatorSymbols other)⟩
  · rintro ⟨⟨tail, rfl⟩, hLongest⟩
    refine Token.exists_read (.operator op) tail trivial (Token.ends_operator_iff_isLongest.mpr
      ⟨mem_operatorSymbols op, List.prefix_append _ _, fun other hOther => ?_⟩)
    obtain ⟨longer, _, rfl⟩ := List.mem_map.mp hOther
    exact hLongest longer

theorem operator_success_iff {op : Operator} {next : Cursor} :
    operator.runWithin limit text pos = .success op next ↔
      (op.symbol.toList <+: text.drop pos ∧
        ∀ other : Operator, other.symbol.toList <+: text.drop pos →
          other.symbol.length ≤ op.symbol.length) ∧
      next = Cursor.place text (pos + op.symbol.length +
        ((text.drop (pos + op.symbol.length)).takeWhile isBlank).length) := by
  have hPlace : ∀ rest, (Token.operator op).Read (text.drop pos) rest →
      (Cursor.place text pos).before rest = Cursor.place text (pos + op.symbol.length +
        ((text.drop (pos + op.symbol.length)).takeWhile isBlank).length) := by
    intro rest hRead
    rw [hRead.before_place, Token.text, String.length_toList]
  rw [runWithin, recognises_operator.success_iff, ← exists_read_operator_iff]
  constructor
  · rintro ⟨_, rest, rfl, hRead, rfl⟩
    exact ⟨⟨rest, hRead⟩, hPlace rest hRead⟩
  · rintro ⟨⟨rest, hRead⟩, rfl⟩
    exact ⟨_, rest, rfl, hRead, (hPlace rest hRead).symm⟩

theorem operator_succeeds_iff :
    (∃ op next, operator.runWithin limit text pos = .success op next) ↔
      ∃ op : Operator, op.symbol.toList <+: text.drop pos := by
  constructor
  · rintro ⟨op, next, hSuccess⟩
    exact ⟨op, (operator_success_iff.mp hSuccess).1.1⟩
  · rintro ⟨op, hStands⟩
    obtain ⟨longest, rest, hRead⟩ := read_operator fun hNone => hNone op hStands
    exact ⟨longest, _, operator_of_read hRead⟩

theorem operator_failure_iff :
    operator.runWithin limit text pos = .failure ⟨pos, .single "operator", false⟩ ↔
      ∀ op : Operator, ¬ op.symbol.toList <+: text.drop pos := by
  constructor
  · intro hFailure
    by_cases hEnd : NoOperator (text.drop pos)
    · exact hEnd
    · obtain ⟨op, rest, hRead⟩ := read_operator hEnd
      rw [runWithin, operator_of_read hRead] at hFailure
      cases hFailure
  · exact fun hNone => operator_of_miss hNone

end Grammar

/-- A choice between tokens, in an order in which none of them is a proper beginning of
a later one, takes the longest token that stands at a place and ends right behind it.
Where none stands it fails on the spot, without commitment. The operators are in such
an order, so that of all of them the longest is taken, with all blanks behind it. -/
theorem operators_longest_first :
    (∀ (first : String) (others : List String), LongestFirst (first :: others) →
      ∀ (limit : Nat) (text : List Char) (pos : Nat),
        (∀ token next,
          (tokenChoice first others).runWithin limit text pos = .success token next ↔
            IsLongest (first :: others) (text.drop pos) token ∧
              next = Cursor.place text (pos + token.length)) ∧
        ((∃ token next, (tokenChoice first others).runWithin limit text pos = .success token next) ↔
          ∃ token ∈ first :: others, token.toList <+: text.drop pos) ∧
        ((∀ token ∈ first :: others, ¬ token.toList <+: text.drop pos) →
          ∃ reason, (tokenChoice first others).runWithin limit text pos = .failure reason ∧
            reason.offset = pos ∧ reason.consumed = false ∧
            ∀ label, label ∈ reason.expected.toList ↔
              ∃ token ∈ first :: others, label = Text.quoted token)) ∧
    LongestFirst (operatorOrder.map Operator.symbol) ∧
    ∀ (limit : Nat) (text : List Char) (pos : Nat),
      (∀ op next, operator.runWithin limit text pos = .success op next ↔
        (op.symbol.toList <+: text.drop pos ∧
          ∀ other : Operator, other.symbol.toList <+: text.drop pos →
            other.symbol.length ≤ op.symbol.length) ∧
        next = Cursor.place text (pos + op.symbol.length +
          ((text.drop (pos + op.symbol.length)).takeWhile isBlank).length)) ∧
      ((∃ op next, operator.runWithin limit text pos = .success op next) ↔
        ∃ op : Operator, op.symbol.toList <+: text.drop pos) ∧
      (operator.runWithin limit text pos = .failure ⟨pos, .single "operator", false⟩ ↔
        ∀ op : Operator, ¬ op.symbol.toList <+: text.drop pos) := by
  refine ⟨fun first others hOrder limit text pos => ?_, longestFirst_operatorOrder,
    fun limit text pos => ?_⟩
  · exact ⟨fun token next => tokenChoice_success_iff hOrder, tokenChoice_succeeds_iff hOrder,
      tokenChoice_failure⟩
  · exact ⟨fun op next => operator_success_iff, operator_succeeds_iff, operator_failure_iff⟩

/-- The comparison with equality is longer than the one without and comes first. -/
theorem operators_longest_first_comparison :
    LongestFirst ["<=", "<"] ∧
      (tokenChoice "<=" ["<"]).runWithin 1 "a<=1".toList 1 =
        .success "<=" (Cursor.place "a<=1".toList 3) := by
  have hOrder : LongestFirst ["<=", "<"] := by decide
  obtain ⟨hSuccess, _⟩ := operators_longest_first.1 "<=" ["<"] hOrder 1 "a<=1".toList 1
  have hLongest : IsLongest ["<=", "<"] ("a<=1".toList.drop 1) "<=" :=
    ⟨by decide, by decide, by decide⟩
  exact ⟨hOrder, (hSuccess "<=" _).mpr ⟨hLongest, rfl⟩⟩

end Scriptlet
