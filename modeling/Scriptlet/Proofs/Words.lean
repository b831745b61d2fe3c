import Scriptlet.Proofs.Grammar.Recognition

namespace Scriptlet

open Grammar Scriptlet.Parser

namespace Grammar

variable {limit pos : Nat} {text : List Char}

/-- Two parsers that recognise the same tokens under the same name do the same. -/
theorem Recognises.runWithin_eq {α : Type} {p q : Parser α} {spells : α → Token → Prop} {name : String}
    (hp : Recognises p spells name) (hq : Recognises q spells name) :
    p.runWithin limit text pos = q.runWithin limit text pos := by
  simp only [runWithin]
  rcases hp.hit_or_miss limit (Cursor.place text pos) with
    ⟨value, t, rest, hSpells, hRead, hStep⟩ | ⟨hNone, hStep⟩
  · rw [hStep, hq.hit hSpells hRead]
  · rw [hStep, hq.miss hNone]

/-- A parser of words succeeds where a word can be read that stands for its value. -/
theorem Recognises.word_success_iff {α : Type} {p : Parser α} {word : α → String} {name : String}
    (h : Recognises p (fun value t => t = .word (word value).toList) name) {value : α} {next : Cursor} :
    p.runWithin limit text pos = .success value next ↔
      ∃ rest, (Token.word (word value).toList).Read (text.drop pos) rest ∧
        next = (Cursor.place text pos).before rest := by
  rw [runWithin, h.success_iff]
  constructor
  · rintro ⟨_, rest, rfl, hRead, hNext⟩
    exact ⟨rest, hRead, hNext⟩
  · rintro ⟨rest, hRead, hNext⟩
    exact ⟨_, rest, rfl, hRead, hNext⟩

theorem identifier_success_iff {name : String} {next : Cursor} :
    identifier.runWithin limit text pos = .success name next ↔
      ∃ rest, (Token.word name.toList).Read (text.drop pos) rest ∧
        next = (Cursor.place text pos).before rest :=
  recognises_identifier.word_success_iff

theorem typeName_success_iff {type : TypeName} {next : Cursor} :
    typeName.runWithin limit text pos = .success type next ↔
      identifier.runWithin limit text pos = .success type.word next := by
  rw [identifier_success_iff, recognises_typeName.word_success_iff]

theorem keyword_success_iff {word value : String} {next : Cursor} (hWord : IsName word.toList) :
    (keyword word).runWithin limit text pos = .success value next ↔
      value = word ∧ identifier.runWithin limit text pos = .success word next := by
  rw [identifier_success_iff, runWithin, (recognises_keyword hWord).success_iff]
  constructor
  · rintro ⟨_, rest, ⟨rfl, rfl⟩, hRead, hNext⟩
    exact ⟨rfl, rest, hRead, hNext⟩
  · rintro ⟨rfl, rest, hRead, hNext⟩
    exact ⟨_, rest, ⟨rfl, rfl⟩, hRead, hNext⟩

theorem keyword_failure {word : String} (hWord : IsName word.toList)
    (hNone : ∀ next, identifier.runWithin limit text pos ≠ .success word next) :
    (keyword word).runWithin limit text pos = .failure ⟨pos, .single (Text.quoted word), false⟩ :=
  (recognises_keyword hWord).failure_of_no_success fun _ next hSuccess =>
    hNone next ((keyword_success_iff hWord).mp hSuccess).2

theorem term_of_identifier {name : String} {next : Cursor}
    (h : identifier.runWithin limit text pos = .success name next) :
    term.runWithin limit text pos = .success (.ofWord name) next := by
  obtain ⟨rest, hRead, rfl⟩ := identifier_success_iff.mp h
  exact operand_of_word hRead

/-- Where a name can begin, there is one. -/
theorem exists_identifier {x : Char} (hNext : text[pos]? = some x) (hStart : isNameStart x = true) :
    ∃ name next, identifier.runWithin limit text pos = .success name next := by
  have hRest : text.drop pos = x :: text.drop (pos + 1) := by
    obtain ⟨hInside, rfl⟩ := List.getElem?_eq_some_iff.mp hNext
    exact List.drop_eq_getElem_cons hInside
  obtain ⟨name, rest, hRead⟩ := read_word hStart (text.drop (pos + 1))
  rw [← hRest] at hRead
  exact ⟨String.ofList name, _, identifier_success_iff.mpr
    ⟨rest, by rwa [String.toList_ofList], rfl⟩⟩

end Grammar

/-- Words are cut the same way everywhere. A keyword is read exactly where a name is
read that is this word, up to the same place, and is missed in place otherwise. The
name of a type is read where one of their words is, in whatever order these are tried.
Where a name can begin, an operand is a truth value or a variable, as the name that
would be read there says. -/
theorem words_agree :
    (∀ word : String, IsName word.toList → ∀ (limit : Nat) (text : List Char) (pos : Nat),
      (∀ value next, (keyword word).runWithin limit text pos = .success value next ↔
        value = word ∧ identifier.runWithin limit text pos = .success word next) ∧
      ((∀ next, identifier.runWithin limit text pos ≠ .success word next) →
        (keyword word).runWithin limit text pos =
          .failure ⟨pos, .single (Text.quoted word), false⟩)) ∧
    (∀ (limit : Nat) (text : List Char) (pos : Nat),
      (∀ type next, typeName.runWithin limit text pos = .success type next ↔
        identifier.runWithin limit text pos = .success type.word next) ∧
      ∀ first others, (first :: others).Perm typeOrder →
        (typeChoice first others).runWithin limit text pos = typeName.runWithin limit text pos) ∧
    ∀ (limit : Nat) (text : List Char) (pos : Nat) (x : Char), text[pos]? = some x →
      Text.isLetter x = true ∨ x = '_' →
        ∃ name next e, identifier.runWithin limit text pos = .success name next ∧
          term.runWithin limit text pos = .success e next ∧
          ((∃ value, e = .literal (.bool value)) ↔ name = "true" ∨ name = "false") ∧
          (name ≠ "true" → name ≠ "false" → e = .var name) := by
  refine ⟨fun word hWord limit text pos => ?_, fun limit text pos => ?_,
    fun limit text pos x hNext hStart => ?_⟩
  · exact ⟨fun value next => keyword_success_iff hWord, keyword_failure hWord⟩
  · refine ⟨fun type next => typeName_success_iff, fun first others hPerm => ?_⟩
    have hAll : ∀ type, type ∈ first :: others := fun type => hPerm.mem_iff.mpr (mem_typeOrder type)
    exact (recognises_typeChoice hAll).runWithin_eq recognises_typeName
  · have hName : isNameStart x = true := by simpa [isNameStart] using hStart
    obtain ⟨name, next, hIdentifier⟩ : ∃ name next,
        identifier.runWithin limit text pos = .success name next := exists_identifier hNext hName
    refine ⟨name, next, _, hIdentifier, term_of_identifier hIdentifier, ?_, Expr.ofWord_of_ne⟩
    rcases Expr.ofWord_cases name with rfl | rfl | ⟨hTrue, hFalse, hVar⟩
    · simp
    · simp
    · simp [hVar, hTrue, hFalse]

/-- The word in front of a declaration, and types that are tried from the last to the first. -/
theorem words_agree_let :
    IsName "let".toList ∧
      (keyword "let").runWithin 1 "let x".toList 0 = .success "let" (Cursor.place "let x".toList 4) ∧
      (typeChoice .matrix [.vector, .point, .string, .bool, .float, .int]).runWithin 1
          "x: int;".toList 3 = .success .int (Cursor.place "x: int;".toList 6) ∧
      ∃ name next e, identifier.runWithin 1 "let x".toList 4 = .success name next ∧
        term.runWithin 1 "let x".toList 4 = .success e next ∧
        ((∃ value, e = .literal (.bool value)) ↔ name = "true" ∨ name = "false") ∧
        (name ≠ "true" → name ≠ "false" → e = .var name) := by
  obtain ⟨hKeyword, hTypes, hOperand⟩ := words_agree
  have hLet : identifier.runWithin 1 "let x".toList 0 =
      .success "let" (Cursor.place "let x".toList 4) := rfl
  have hInt : identifier.runWithin 1 "x: int;".toList 3 =
      .success "int" (Cursor.place "x: int;".toList 6) := rfl
  have hReverse : [TypeName.matrix, .vector, .point, .string, .bool, .float, .int].Perm typeOrder :=
    List.reverse_perm typeOrder
  obtain ⟨hTypeName, hOrder⟩ := hTypes 1 "x: int;".toList 3
  refine ⟨isName_let, ((hKeyword "let" isName_let 1 _ 0).1 "let" _).mpr ⟨rfl, hLet⟩, ?_,
    hOperand 1 _ 4 'x' rfl (.inl (by decide))⟩
  rw [hOrder .matrix _ hReverse]
  exact (hTypeName .int _).mpr hInt

end Scriptlet
