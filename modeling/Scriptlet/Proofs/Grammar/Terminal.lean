import Scriptlet.Proofs.Grammar.Token
import Scriptlet.Proofs.Number.Digits
import Scriptlet.Proofs.Parsing.LongestMatch

namespace Scriptlet.Grammar

open Scriptlet.Parser

variable {d : Nat} {c : Cursor} {rest : List Char}

/-! Classes of characters. -/

theorem takes_blank : Takes (oneOf " \n\t" "whitespace") isBlank := by
  have hClass : (fun x => " \n\t".toList.contains x) = isBlank := by
    funext x
    rw [Bool.eq_iff_iff]
    simp [isBlank, or_assoc]
  exact hClass ▸ takes_satisfy _ _

theorem takes_nameStart : Takes nameStart isNameStart :=
  (takes_satisfy _ _).orElse (takes_satisfy _ _)

theorem takes_namePart : Takes namePart isNamePart :=
  takes_nameStart.orElse (takes_satisfy _ _)

theorem takes_digit : Takes digit Char.isDigit := takes_satisfy _ _

theorem takes_stringCharacter :
    Takes (noneOf "\"" "string character") (fun x => x != '"') := by
  have hClass : (fun x => !"\"".toList.contains x) = (fun x => x != '"') := by
    funext x
    rw [Bool.eq_iff_iff]
    simp
  exact hClass ▸ takes_satisfy _ _

/-! Lexemes. -/

theorem whitespace_run {run : List Char} (h : c.rest = run ++ rest) (hRun : IsBlank run)
    (hRest : NoBlank rest) : whitespace.step d c = .success () (c.before rest) := by
  rw [whitespace, map_step, takes_blank.many_run h hRun hRest, Cursor.before_eq_skip h]
  rfl

/-- A lexeme ends behind the blanks that follow it. -/
theorem lexeme_of_success {α : Type} {p : Parser α} {value : α} {next : Cursor} {run : List Char}
    (hp : p.step d c = .success value next) (h : next.rest = run ++ rest)
    (hRun : IsBlank run) (hRest : NoBlank rest) :
    (lexeme p).step d c = .success value (next.before rest) := by
  simp [lexeme, keepLeft_step, keepLeft, hp, whitespace_run h hRun hRest]

theorem lexeme_of_failure {α : Type} {p : Parser α} {reason : Failure}
    (hp : p.step d c = .failure reason) : (lexeme p).step d c = .failure reason := by
  simp [lexeme, keepLeft_step, keepLeft, hp]

theorem lexeme_misses {α : Type} {p : Parser α} (h : Misses p d c) :
    Misses (lexeme p) d c :=
  h.keepLeft whitespace

/-- A parser that takes the characters of a token, as a lexeme, takes the
token and the blanks after it. -/
theorem lexeme_of_read {α : Type} {p : Parser α} {value : α} {t : Token}
    (hRead : t.Read c.rest rest) (hp : p.step d c = .success value (c.skip t.text.length)) :
    (lexeme p).step d c = .success value (c.before rest) := by
  obtain ⟨run, hRun, hText, _⟩ := hRead.split
  have hNext : (c.skip t.text.length).rest = run ++ rest := by simp [hText]
  rw [lexeme_of_success hp hNext hRun hRead.noBlank, ← Cursor.before_eq_skip hText,
    Cursor.before_before ⟨t.text, hText.symm⟩ ⟨run, rfl⟩]

/-- The place behind a word and all blanks that follow it, counted in the text. -/
theorem place_behind_blanks {text word blanks : List Char} {pos : Nat} (hWord : word ≠ [])
    (h : text.drop pos = word ++ (blanks ++ rest)) (hBlanks : IsBlank blanks) (hRest : NoBlank rest) :
    (Cursor.place text pos).skip (word.length + blanks.length) = Cursor.place text
      (pos + word.length + ((text.drop (pos + word.length)).takeWhile isBlank).length) := by
  have hAfter : text.drop (pos + word.length) = blanks ++ rest := by
    rw [← List.drop_drop, h, List.drop_left]
  have hInside : pos + (word.length + blanks.length) ≤ text.length := by
    have hLength := congrArg List.length h
    have hPositive := List.length_pos_iff.mpr hWord
    simp only [List.length_drop, List.length_append] at hLength
    omega
  rw [hAfter, takeWhile_run hBlanks hRest, Cursor.place_skip hInside, Nat.add_assoc]

/-! Punctuation. -/

theorem symbol_of_read {x : Char} (h : (Token.mark x).Read c.rest rest) :
    (symbol x).step d c = .success x (c.before rest) := by
  obtain ⟨run, _, hText, _⟩ := h.split
  exact lexeme_of_read h (satisfy_hit hText (by simp))

theorem symbol_of_miss {x : Char} (h : c.rest.head? ≠ some x) :
    (symbol x).step d c = .failure (.here c (Text.quoted (String.singleton x))) := by
  refine lexeme_of_failure (satisfy_miss fun y hy => ?_)
  have hDifferent : y ≠ x := by
    rintro rfl
    exact h hy
  simpa using hDifferent

theorem read_mark {x : Char} (hMark : x ∈ marks) (h : c.rest.head? = some x) :
    ∃ rest, (Token.mark x).Read c.rest rest := by
  cases hRest : c.rest with
  | nil => simp [hRest] at h
  | cons y text =>
      obtain rfl : y = x := by simpa [hRest] using h
      exact Token.exists_read (.mark y) text hMark fun _ _ => rfl

/-! Words. -/

theorem IsName.ne_nil {name : List Char} (h : IsName name) : name ≠ [] := by
  rintro rfl
  exact h

theorem IsName.isNamePart {name : List Char} (h : IsName name) : ∀ x ∈ name, isNamePart x = true := by
  cases name with
  | nil => simp
  | cons first name =>
      intro x hx
      rcases List.mem_cons.mp hx with rfl | hx
      · exact isNamePart_of_isNameStart h.1
      · exact h.2 x hx

theorem Token.ends_word {name text : List Char} :
    (Token.word name).Ends text ↔ ∀ x ∈ text.head?, isNamePart x = false := by
  simp [Token.Ends, Token.endsBefore]

/-- A word is what the longest run of name characters spells, so a text does
not begin with two different ones. -/
theorem Token.Read.word_unique {first second text left right : List Char}
    (hFirst : (Token.word first).Read text left) (hSecond : (Token.word second).Read text right) :
    first = second ∧ left = right := by
  obtain ⟨run, hRun, hText, hEnds⟩ := hFirst.split
  obtain ⟨otherRun, hOtherRun, hOther, hOtherEnds⟩ := hSecond.split
  have hName := takeWhile_run hFirst.valid.isNamePart (Token.ends_word.mp hEnds)
  have hOtherName := takeWhile_run hSecond.valid.isNamePart (Token.ends_word.mp hOtherEnds)
  simp only [Token.text] at hText hOther
  rw [← hText] at hName
  rw [← hOther, hName] at hOtherName
  subst hOtherName
  rw [hText, List.append_cancel_left_eq] at hOther
  have hBlanks := takeWhile_run hRun hFirst.noBlank
  rw [hOther, takeWhile_run hOtherRun hSecond.noBlank] at hBlanks
  subst hBlanks
  exact ⟨rfl, List.append_cancel_left hOther⟩

theorem read_word {x : Char} (hx : isNameStart x = true) (text : List Char) :
    ∃ name rest, (Token.word name).Read (x :: text) rest := by
  obtain ⟨run, tail, rfl, hRun, hTail⟩ := exists_run isNamePart text
  exact ⟨x :: run, Token.exists_read (.word (x :: run)) tail ⟨hx, hRun⟩ (Token.ends_word.mpr hTail)⟩

theorem identifier_of_read {name : List Char} (h : (Token.word name).Read c.rest rest) :
    identifier.step d c = .success (String.ofList name) (c.before rest) := by
  obtain ⟨run, _, hText, hEnds⟩ := h.split
  have hName : IsName name := h.valid
  cases name with
  | nil => exact absurd rfl hName.ne_nil
  | cons first name =>
      have hFirst := takes_nameStart.hit (d := d) hText hName.1
      have hRest : (c.skip 1).rest = name ++ (run ++ rest) := by simp [hText, Token.text]
      have hOthers := takes_namePart.many_run (d := d) hRest hName.2 (Token.ends_word.mp hEnds)
      refine label_success (lexeme_of_read h ?_)
      simp [map_step, pair, hFirst, hOthers, Outcome.map, Cursor.skip_skip, Token.text, Nat.add_comm]

theorem identifier_of_miss (h : ∀ x ∈ c.rest.head?, isNameStart x = false) :
    identifier.step d c = .failure (.here c "identifier") := by
  obtain ⟨reason, hMiss, hFree⟩ := takes_nameStart.miss (d := d) h
  exact (lexeme_misses (Misses.map ⟨reason, by simp [pair, hMiss], hFree⟩ _)).label _

/-- A keyword matches exactly the word itself. -/
theorem keyword_of_read {word : String} (h : (Token.word word.toList).Read c.rest rest) :
    (keyword word).step d c = .success word (c.before rest) := by
  obtain ⟨run, _, hText, hEnds⟩ := h.split
  have hWord := string_hit (d := d) h.valid.ne_nil hText
  obtain ⟨reason, hEnd, _⟩ := takes_namePart.miss (d := d) (c := c.skip word.toList.length)
    (by simpa [hText, Token.text] using Token.ends_word.mp hEnds)
  refine lexeme_of_read h (label_success ?_)
  simp [attempt, keepLeft_step, keepLeft, hWord, notFollowedBy, hEnd, Token.text]

theorem keyword_of_miss {word : String} (hName : IsName word.toList)
    (h : ∀ rest, ¬ (Token.word word.toList).Read c.rest rest) :
    (keyword word).step d c = .failure (.here c (Text.quoted word)) := by
  suffices hInner : ∃ reason,
      (string word <* notFollowedBy namePart "identifier character").step d c =
        .failure reason by
    obtain ⟨reason, hFails⟩ := hInner
    exact lexeme_of_failure (label_of_uncommitted _ (attempt_of_failure hFails) rfl)
  by_cases hPrefix : word.toList <+: c.rest
  · obtain ⟨text, hText⟩ := hPrefix
    have hWord := string_hit (d := d) hName.ne_nil hText.symm
    have hRest : (c.skip word.toList.length).rest = text := by simp [← hText]
    by_cases hEnds : (Token.word word.toList).Ends text
    · obtain ⟨rest, hRead⟩ := Token.exists_read (.word word.toList) text hName hEnds
      exact absurd (hText ▸ hRead) (h rest)
    · simp only [Token.ends_word, Classical.not_forall, Bool.not_eq_false] at hEnds
      obtain ⟨x, hx, hPart⟩ := hEnds
      obtain ⟨others, rfl⟩ := List.head?_eq_some_iff.mp hx
      have hGoesOn := takes_namePart.hit (d := d) hRest hPart
      exact ⟨.later c (c.skip word.toList.length) (.here (c.skip word.toList.length) "identifier character"),
        by simp only [keepLeft_step, keepLeft, hWord, notFollowedBy, hGoesOn]⟩
  · exact ⟨.here c (Text.quoted word), by simp only [keepLeft_step, keepLeft, string_miss hPrefix]⟩

theorem isName_true : IsName "true".toList := by decide

theorem isName_false : IsName "false".toList := by decide

theorem isName_let : IsName "let".toList := by decide

theorem isName_typeWord (type : TypeName) : IsName type.word.toList := by
  cases type <;> decide

/-! Truth values and types. -/

def boolWord (value : Bool) : List Char := if value then "true".toList else "false".toList

theorem boolean_of_read {value : Bool} (h : (Token.word (boolWord value)).Read c.rest rest) :
    boolean.step d c = .success (.literal (.bool value)) (c.before rest) := by
  have hValue : (keyword "true" *> Parser.pure true <|> keyword "false" *> Parser.pure false).step
      d c = .success value (c.before rest) := by
    cases value with
    | true =>
        refine choice_hit [] _ rfl (by simp) ?_
        simp [keepRight_step, keepRight, keyword_of_read h, Parser.pure]
    | false =>
        refine choice_hit [_] _ rfl (fun q hq => ?_) ?_
        · have hMiss : ∀ rest, ¬ (Token.word "true".toList).Read c.rest rest := fun _ hTrue =>
            absurd (h.word_unique hTrue).1 (by decide)
          obtain rfl := List.mem_singleton.mp hq
          exact (misses_here (keyword_of_miss isName_true hMiss)).keepRight _
        · simp [keepRight_step, keepRight, keyword_of_read h, Parser.pure]
  exact label_success (by simp [map_step, hValue, Outcome.map])

theorem boolean_of_miss (h : ∀ value rest, ¬ (Token.word (boolWord value)).Read c.rest rest) :
    boolean.step d c = .failure (.here c "boolean") := by
  have hTrue := misses_here (keyword_of_miss (d := d) isName_true (h true))
  have hFalse := misses_here (keyword_of_miss (d := d) isName_false (h false))
  refine Misses.label (Misses.map ?_ _) _
  refine choice_misses (hTrue.keepRight _) fun q hq => ?_
  obtain rfl := List.mem_singleton.mp hq
  exact hFalse.keepRight _

/-- The words of types in the order in which they are tried. -/
def typeOrder : List TypeName := [.int, .float, .bool, .string, .point, .vector, .matrix]

theorem mem_typeOrder (type : TypeName) : type ∈ typeOrder := by
  cases type <;> decide

/-- The words of types as alternatives in a given order. -/
def typeChoice (first : TypeName) (others : List TypeName) : Parser TypeName :=
  label "type name" (choice (typeWord first) (others.map typeWord))

theorem typeWord_injective {type other : TypeName}
    (h : type.word.toList = other.word.toList) : type = other := by
  revert h
  cases type <;> cases other <;> decide

section TypeChoice

variable {first : TypeName} {others : List TypeName}

/-- Whatever comes before the word of a type is another word, so the order of the
alternatives plays no part. -/
theorem typeChoice_of_read {type : TypeName} (hMem : type ∈ first :: others)
    (h : (Token.word type.word.toList).Read c.rest rest) :
    (typeChoice first others).step d c = .success type (c.before rest) := by
  obtain ⟨earlier, later, hSplit, hFresh⟩ := List.eq_append_cons_of_mem hMem
  refine label_success (choice_map_hit hSplit (fun other hOther => ?_) ?_)
  · have hMiss : ∀ rest, ¬ (Token.word other.word.toList).Read c.rest rest := by
      intro _ hRead
      exact hFresh (typeWord_injective (h.word_unique hRead).1 ▸ hOther)
    exact (misses_here (keyword_of_miss (isName_typeWord other) hMiss)).keepRight _
  · simp [typeWord, keepRight_step, keepRight, keyword_of_read h, Parser.pure]

theorem typeChoice_of_miss
    (h : ∀ type ∈ first :: others, ∀ rest, ¬ (Token.word type.word.toList).Read c.rest rest) :
    (typeChoice first others).step d c = .failure (.here c "type name") := by
  have hWord : ∀ type ∈ first :: others, Misses (typeWord type) d c := fun type hType =>
    (misses_here (keyword_of_miss (isName_typeWord type) (h type hType))).keepRight _
  refine Misses.label (choice_misses (hWord first List.mem_cons_self) fun q hq => ?_) _
  obtain ⟨other, hOther, rfl⟩ := List.mem_map.mp hq
  exact hWord other (List.mem_cons_of_mem _ hOther)

end TypeChoice

theorem typeName_of_read {type : TypeName} (h : (Token.word type.word.toList).Read c.rest rest) :
    typeName.step d c = .success type (c.before rest) :=
  typeChoice_of_read (mem_typeOrder type) h

theorem typeName_of_miss (h : ∀ type rest, ¬ (Token.word (TypeName.word type).toList).Read c.rest rest) :
    typeName.step d c = .failure (.here c "type name") :=
  typeChoice_of_miss fun type _ => h type

/-! Operators. -/

/-- No operator stands at the beginning of the text. -/
def NoOperator (text : List Char) : Prop := ∀ op : Operator, ¬ op.symbol.toList <+: text

theorem noOperator_nil : NoOperator [] := by
  intro op
  cases op <;> decide

theorem mem_operatorOrder (op : Operator) : op ∈ operatorOrder := by
  cases op <;> decide

/-- What holds of the characters of all operators. -/
theorem operator_all (accepts : Char → Bool)
    (h : (operatorOrder.all fun op => op.symbol.toList.all accepts) = true) (op : Operator) :
    ∀ x ∈ op.symbol.toList, accepts x = true := by
  have hOp := List.all_eq_true.mp h op (mem_operatorOrder op)
  exact List.all_eq_true.mp hOp

/-- The first character may already rule out all operators. -/
theorem noOperator_of_head? {text : List Char} {x : Char} (h : text.head? = some x)
    (hx : ∀ op ∈ operatorOrder, op.symbol.toList.head? ≠ some x) : NoOperator text := by
  rintro op ⟨tail, rfl⟩
  refine hx op (mem_operatorOrder op) ?_
  rw [← h]
  cases op <;> rfl

/-- The order has each operator before those that its characters begin with. -/
theorem longestFirst_operatorOrder : LongestFirst (operatorOrder.map Operator.symbol) := by
  decide

theorem mem_operatorSymbols (op : Operator) : op.symbol ∈ operatorOrder.map Operator.symbol :=
  List.mem_map_of_mem (mem_operatorOrder op)

/-- An operator is at most one character longer than another. -/
theorem operator_extension {op longer : Operator} (h : op.symbol.toList <+: longer.symbol.toList) :
    longer.symbol.toList = op.symbol.toList ∨
      ∃ next, longer.symbol.toList = op.symbol.toList ++ [next] := by
  obtain ⟨tail, hTail⟩ := h
  have hLength : tail.length ≤ 1 := by
    have hLengths := congrArg List.length hTail
    have hShort : longer.symbol.toList.length ≤ 2 := by cases longer <;> decide
    have hLong : 1 ≤ op.symbol.toList.length := by cases op <;> decide
    simp only [List.length_append] at hLengths
    omega
  match tail, hLength with
  | [], _ => exact .inl (by rw [← hTail, List.append_nil])
  | [next], _ => exact .inr ⟨next, hTail.symm⟩

theorem Token.ends_operator {op : Operator} {text : List Char} :
    (Token.operator op).Ends text ↔
      ∀ longer : Operator, ∀ next ∈ text.head?, longer.symbol.toList ≠ op.symbol.toList ++ [next] := by
  simp only [Token.Ends, Token.endsBefore, List.all_eq_true, bne_iff_ne]
  constructor
  · intro h longer next hNext
    exact h next hNext longer (mem_operatorOrder longer)
  · intro h next hNext longer _
    exact h longer next hNext

/-- An operator is over exactly where no longer one stands. -/
theorem Token.ends_operator_iff_isLongest {op : Operator} {text : List Char} :
    (Token.operator op).Ends text ↔
      IsLongest (operatorOrder.map Operator.symbol) (op.symbol.toList ++ text) op.symbol := by
  rw [Token.ends_operator]
  constructor
  · refine fun hEnds => ⟨mem_operatorSymbols op, List.prefix_append _ _, fun other hOther hStands => ?_⟩
    obtain ⟨longer, _, rfl⟩ := List.mem_map.mp hOther
    rw [← String.length_toList, ← String.length_toList]
    rcases List.prefix_or_prefix_of_prefix hStands (List.prefix_append _ text) with hShorter | hLonger
    · exact hShorter.length_le
    · rcases operator_extension hLonger with hSame | ⟨next, hNext⟩
      · rw [hSame]
      · rw [hNext, List.prefix_append_right_inj] at hStands
        obtain ⟨others, rfl⟩ := hStands
        exact absurd hNext (hEnds longer next rfl)
  · intro hLongest longer next hNext hLonger
    obtain ⟨others, rfl⟩ := List.head?_eq_some_iff.mp hNext
    have hStands : longer.symbol.toList <+: op.symbol.toList ++ next :: others :=
      ⟨others, by rw [hLonger, List.append_assoc]; rfl⟩
    have hLength := hLongest.longest _ (mem_operatorSymbols longer) hStands
    rw [← String.length_toList, ← String.length_toList, hLonger, List.length_append] at hLength
    exact absurd hLength (by simp)

/-- The order of the operators makes the longest one win. -/
theorem operator_of_read {op : Operator} (h : (Token.operator op).Read c.rest rest) :
    operator.step d c = .success op (c.before rest) := by
  obtain ⟨run, _, hText, hEnds⟩ := h.split
  have hLongest := Token.ends_operator_iff_isLongest.mp hEnds
  refine label_success (lexeme_of_read h ((choice_spelled_iff longestFirst_operatorOrder).mpr
    ⟨mem_operatorOrder op, ?_, rfl⟩))
  rw [hText]
  exact hLongest

theorem operator_of_miss (h : NoOperator c.rest) :
    operator.step d c = .failure (.here c "operator") :=
  Misses.label (lexeme_misses (choice_spelled_misses fun op _ => h op)) _

theorem read_operator {text : List Char} (h : ¬ NoOperator text) :
    ∃ op rest, (Token.operator op).Read text rest := by
  obtain ⟨op, hOp⟩ := Classical.not_forall.mp h
  obtain ⟨_, longest, _, _, _, hLongest⟩ := longestFirst_operatorOrder.exists_first
    ⟨op, mem_operatorOrder op, Classical.not_not.mp hOp⟩
  obtain ⟨tail, rfl⟩ := hLongest.stands
  exact ⟨longest, Token.exists_read (.operator longest) tail trivial
    (Token.ends_operator_iff_isLongest.mpr hLongest)⟩

end Scriptlet.Grammar
