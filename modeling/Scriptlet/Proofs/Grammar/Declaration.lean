import Scriptlet.Grammar.Statement
import Scriptlet.Proofs.Grammar.Expression

namespace Scriptlet

open Grammar

namespace Grammar

/-- The tokens of a type annotation, which may be missing. -/
def typeTokens : Option TypeName → List Token
  | none => []
  | some type => [.mark ':', .word type.word.toList]

/-- The tokens of a declaration in front of its initializer. -/
def heading (name : String) (type : Option TypeName) : List Token :=
  .word "let".toList :: .word name.toList :: typeTokens type

/-- The end of a declaration: an initializer and a semicolon, or the semicolon
alone. -/
inductive InitializerSpelling : Option Expr → List Token → Prop where
  | none : InitializerSpelling none [.semicolon]
  | some {e : Expr} {ts : List Token} (h : e.Spelling ts) :
      InitializerSpelling (some e) (.mark '=' :: (ts ++ [.semicolon]))

end Grammar

namespace Variable

def WellFormed (v : Variable) : Prop := IsName v.name.toList ∧ ∀ e ∈ v.initializer, e.WellFormed

inductive Spelling : Variable → List Token → Prop where
  | mk (name : String) (type : Option TypeName) {initializer : Option Expr} {ts : List Token}
      (h : InitializerSpelling initializer ts) :
      Spelling ⟨name, type, initializer⟩ (heading name type ++ ts)

end Variable

namespace Grammar

open Scriptlet.Parser

variable {d k : Nat} {c : Cursor} {mid rest : List Char} {ts us : List Token} {labels : Labels}

/-! Type annotations. -/

theorem typeAnnotation_of_none (h : c.rest.head? ≠ some ':') :
    typeAnnotation.step d c = .success none c :=
  optional_of_misses ((misses_here (symbol_of_miss h)).keepRight _)

theorem typeAnnotation_of_some {type : TypeName} (hColon : (Token.mark ':').Read c.rest mid)
    (h : (Token.word type.word.toList).Read mid rest) :
    typeAnnotation.step d c = .success (some type) (c.before rest) := by
  have hMid : (c.before mid).rest = mid := Cursor.rest_before hColon.suffix
  have hType : typeName.step d (c.before mid) = .success type ((c.before mid).before rest) :=
    typeName_of_read (by rwa [hMid])
  refine optional_of_success ?_
  simp [keepRight_step, keepRight, symbol_of_read hColon, hType,
    Cursor.before_before hColon.suffix h.suffix]

theorem typeAnnotation_of_miss (hColon : (Token.mark ':').Read c.rest mid)
    (h : ∀ type rest, ¬ (Token.word (TypeName.word type).toList).Read mid rest) :
    typeAnnotation.step d c = .failure ⟨(c.before mid).offset, .single "type name", true⟩ := by
  have hMid : (c.before mid).rest = mid := Cursor.rest_before hColon.suffix
  have hType : typeName.step d (c.before mid) = .failure (.here (c.before mid) "type name") :=
    typeName_of_miss (by rwa [hMid])
  refine optional_of_committed ?_ rfl
  simp [keepRight_step, keepRight, symbol_of_read hColon, hType, Failure.here, Failure.later,
    hColon.offset_lt]

/-- An annotation is read as it is spelled. Without one no colon may follow. -/
theorem typeAnnotation_of_written {type : Option TypeName}
    (h : Written (typeTokens type) c.rest rest) (hNone : type = none → rest.head? ≠ some ':') :
    typeAnnotation.step d c = .success type (c.before rest) := by
  cases type with
  | none =>
      cases h with
      | nil =>
          rw [typeAnnotation_of_none (hNone rfl), Cursor.before_rest]
  | some type =>
      cases h with
      | cons hColon hOthers => exact typeAnnotation_of_some hColon (written_single hOthers)

/-! Initializers. -/

theorem initializer_of_semicolon (h : Token.semicolon.Read c.rest rest) :
    initializer.step d c = .success none (c.before rest) := by
  have hEquals : c.rest.head? ≠ some '=' := by
    rw [h.head?]
    decide
  have hSemicolon : (symbol ';').step d c = .success ';' (c.before rest) := symbol_of_read h
  simp [initializer, orElse_step, choice, tryEach, map_step, keepRight_step, keepRight,
    keepLeft_step, keepLeft, symbol_of_miss hEquals, hSemicolon, Outcome.map, Failure.here,
    Parser.pure]

theorem initializer_of_miss (hEquals : c.rest.head? ≠ some '=') (hSemicolon : c.rest.head? ≠ some ';') :
    initializer.step d c = .failure ⟨c.offset, (Labels.single (Text.quoted (String.singleton '='))).union
      (.single (Text.quoted (String.singleton ';'))), false⟩ := by
  simp [initializer, orElse_step, choice, tryEach, map_step, keepRight_step, keepRight,
    keepLeft_step, keepLeft, symbol_of_miss hEquals, symbol_of_miss hSemicolon, Outcome.map,
    Failure.here, Failure.merge_same]

/-- After an equals sign the initializer is an expression up to a semicolon. -/
theorem initializer_of_success {e : Expr} {next : Cursor}
    (h : (between (symbol '=') (symbol ';') expression).step d c = .success e next) :
    initializer.step d c = .success (some e) next := by
  rw [← keepLeft_keepRight_step] at h
  simp [initializer, orElse_step, choice, map_step, h, Outcome.map]

theorem initializer_of_failure {reason : Failure}
    (h : (between (symbol '=') (symbol ';') expression).step d c = .failure reason)
    (hCommitted : reason.consumed = true) : initializer.step d c = .failure reason := by
  rw [← keepLeft_keepRight_step] at h
  simp [initializer, orElse_step, choice, map_step, h, hCommitted, Outcome.map]

theorem initializer_of_halted {cause : Halt}
    (h : (between (symbol '=') (symbol ';') expression).step d c = .halted cause) :
    initializer.step d c = .halted cause := by
  rw [← keepLeft_keepRight_step] at h
  simp [initializer, orElse_step, choice, map_step, h, Outcome.map]

/-- What has been read of an initializer when it goes wrong. -/
inductive InitializerStuck (d : Nat) : Nat → List Token → List Char → List Char → Labels → Prop where
  | start {mid : List Char} (hEquals : mid.head? ≠ some '=') (hSemicolon : mid.head? ≠ some ';') :
      InitializerStuck d 0 [] mid mid ((Labels.single (Text.quoted (String.singleton '='))).union
        (.single (Text.quoted (String.singleton ';'))))
  | expression {k : Nat} {ts : List Token} {mid rest : List Char} {labels : Labels}
      (h : Stuck d k ts mid rest labels) : InitializerStuck d k (.mark '=' :: ts) mid rest labels
  | semicolon {e : Expr} {ts : List Token} {mid : List Char} (hSpelling : e.Spelling ts)
      (hForm : e.WellFormed) (hNesting : e.nesting < d) (hEnd : NoOperator mid)
      (hMiss : mid.head? ≠ some ';') :
      InitializerStuck d 0 (.mark '=' :: ts) mid mid (.single (Text.quoted (String.singleton ';')))

theorem InitializerStuck.suffix (h : InitializerStuck d k ts mid rest labels) : rest <:+ mid := by
  cases h with
  | start | semicolon => exact List.suffix_refl _
  | expression h => exact h.suffix

inductive InitializerOutcome (d : Nat) (c : Cursor) : Outcome (Option Expr) → Prop where
  | success {value : Option Expr} {ts : List Token} {rest : List Char}
      (hSpelling : InitializerSpelling value ts) (hForm : ∀ e ∈ value, e.WellFormed)
      (hNesting : ∀ e ∈ value, e.nesting < d) (hWritten : Written ts c.rest rest) :
      InitializerOutcome d c (.success value (c.before rest))
  | failure {k : Nat} {ts : List Token} {mid rest : List Char} {labels : Labels}
      (hStuck : InitializerStuck d k ts mid rest labels) (hWritten : Written ts c.rest mid) :
      InitializerOutcome d c (.failure
        ⟨(c.before rest).offset, labels, decide (rest.length < c.rest.length)⟩)
  | tooDeep {ts : List Token} {mid : List Char} (hOpening : Opening d d ts)
      (hWritten : Written (.mark '=' :: ts) c.rest mid) : InitializerOutcome d c (.halted .tooDeep)

theorem initializer_outcome (d : Nat) (c : Cursor) :
    InitializerOutcome d c (initializer.step d c) := by
  by_cases hEquals : c.rest.head? = some '='
  · obtain ⟨mid, hMark⟩ := read_mark (by decide : '=' ∈ marks) hEquals
    have hValue : EnclosedOutcome d '=' ';' c _ :=
      enclosed_outcome (by decide) hMark (expression_outcome d (c.before mid))
    generalize hOutcome : (between (symbol '=') (symbol ';') expression).step d c = outcome at hValue
    cases hValue with
    | success hSpelling hForm hNesting hWritten =>
        rw [initializer_of_success hOutcome]
        exact .success (.some hSpelling) (by simpa using hForm) (by simpa using hNesting) hWritten
    | unclosed hSpelling hForm hNesting hEnd hMiss hWritten =>
        rw [initializer_of_failure hOutcome rfl]
        have hStuck := InitializerOutcome.failure (c := c)
          (.semicolon hSpelling hForm hNesting hEnd hMiss) hWritten
        simpa [hWritten.length_lt (List.cons_ne_nil _ _)] using hStuck
    | failure hStuck hWritten hMoved =>
        rw [initializer_of_failure hOutcome rfl]
        have hLater := InitializerOutcome.failure (c := c) (.expression hStuck) hWritten
        simpa [hMoved] using hLater
    | tooDeep hOpening hWritten =>
        rw [initializer_of_halted hOutcome]
        exact .tooDeep hOpening hWritten
  · by_cases hSemicolon : c.rest.head? = some ';'
    · obtain ⟨rest, hMark⟩ := read_mark (by decide : ';' ∈ marks) hSemicolon
      rw [initializer_of_semicolon hMark]
      exact .success .none (by simp) (by simp) (.single hMark)
    · rw [initializer_of_miss hEquals hSemicolon]
      have hStuck := InitializerOutcome.failure (d := d) (c := c) (.start hEquals hSemicolon) (.nil c.rest)
      simpa using hStuck

/-! Declarations. -/

theorem heading_of_written {name : String} {type : Option TypeName}
    (h : Written (heading name type) c.rest mid) (hNone : type = none → mid.head? ≠ some ':') :
    (pair (keyword "let" *> identifier) typeAnnotation).step d c =
      .success (name, type) (c.before mid) := by
  cases h with
  | @cons _ _ _ afterLet _ hLet hOthers =>
      cases hOthers with
      | @cons _ _ _ afterName _ hName hType =>
          have hAfterLet : (c.before afterLet).rest = afterLet := Cursor.rest_before hLet.suffix
          have hSuffix := hName.suffix.trans hLet.suffix
          have hAfterName : (c.before afterName).rest = afterName := Cursor.rest_before hSuffix
          have hIdentifier : identifier.step d (c.before afterLet) =
              .success name (c.before afterName) := by
            rw [identifier_of_read (by rwa [hAfterLet]), String.ofList_toList,
              Cursor.before_before hLet.suffix hName.suffix]
          have hAnnotation : typeAnnotation.step d (c.before afterName) =
              .success type (c.before mid) := by
            rw [typeAnnotation_of_written (by rwa [hAfterName]) hNone,
              Cursor.before_before hSuffix hType.suffix]
          simp [pair, keepRight_step, keepRight, keyword_of_read hLet, hIdentifier, hAnnotation]

theorem declaration_of_keyword_miss (h : ∀ rest, ¬ (Token.word "let".toList).Read c.rest rest) :
    declaration.step d c = .failure (.here c (Text.quoted "let")) := by
  simp [declaration, map_step, triple, pair, keepRight_step, keepRight, keyword_of_miss isName_let h,
    Outcome.map]

theorem declaration_of_name_miss (hLet : (Token.word "let".toList).Read c.rest mid)
    (h : ∀ x ∈ mid.head?, isNameStart x = false) :
    declaration.step d c = .failure ⟨(c.before mid).offset, .single "identifier", true⟩ := by
  have hMid : (c.before mid).rest = mid := Cursor.rest_before hLet.suffix
  have hIdentifier : identifier.step d (c.before mid) = .failure (.here (c.before mid) "identifier") :=
    identifier_of_miss (by rwa [hMid])
  simp [declaration, map_step, triple, pair, keepRight_step, keepRight, keyword_of_read hLet,
    hIdentifier, Outcome.map, Failure.here, Failure.later, hLet.offset_lt]

theorem declaration_of_type_miss {name : List Char} {afterLet afterName : List Char}
    (hLet : (Token.word "let".toList).Read c.rest afterLet)
    (hName : (Token.word name).Read afterLet afterName)
    (hColon : (Token.mark ':').Read afterName mid)
    (h : ∀ type rest, ¬ (Token.word (TypeName.word type).toList).Read mid rest) :
    declaration.step d c = .failure ⟨(c.before mid).offset, .single "type name", true⟩ := by
  have hAfterLet : (c.before afterLet).rest = afterLet := Cursor.rest_before hLet.suffix
  have hSuffix := hName.suffix.trans hLet.suffix
  have hAfterName : (c.before afterName).rest = afterName := Cursor.rest_before hSuffix
  have hIdentifier : identifier.step d (c.before afterLet) =
      .success (String.ofList name) (c.before afterName) := by
    rw [identifier_of_read (by rwa [hAfterLet]), Cursor.before_before hLet.suffix hName.suffix]
  have hAnnotation : typeAnnotation.step d (c.before afterName) =
      .failure ⟨(c.before mid).offset, .single "type name", true⟩ := by
    rw [typeAnnotation_of_miss (by rwa [hAfterName]) h, Cursor.before_before hSuffix hColon.suffix]
  simp [declaration, map_step, triple, pair, keepRight_step, keepRight, keyword_of_read hLet,
    hIdentifier, hAnnotation, Outcome.map, Failure.later]

section Initializer

variable {name : String} {type : Option TypeName} {reached : Cursor}

theorem declaration_of_initializer {value : Option Expr} {next : Cursor}
    (hHeading : (pair (keyword "let" *> identifier) typeAnnotation).step d c =
      .success (name, type) reached)
    (h : initializer.step d reached = .success value next) :
    declaration.step d c = .success ⟨name, type, value⟩ next := by
  simp [declaration, map_step, triple, hHeading, h, Outcome.map]

theorem declaration_of_initializer_failure {reason : Failure}
    (hHeading : (pair (keyword "let" *> identifier) typeAnnotation).step d c =
      .success (name, type) reached)
    (h : initializer.step d reached = .failure reason) (hMoved : c.offset < reached.offset) :
    declaration.step d c = .failure { reason with consumed := true } := by
  simp [declaration, map_step, triple, hHeading, h, Outcome.map, Failure.later, hMoved]

theorem declaration_of_initializer_halted {cause : Halt}
    (hHeading : (pair (keyword "let" *> identifier) typeAnnotation).step d c =
      .success (name, type) reached)
    (h : initializer.step d reached = .halted cause) : declaration.step d c = .halted cause := by
  simp [declaration, map_step, triple, hHeading, h, Outcome.map]

end Initializer

/-- What has been read of a declaration when it goes wrong. -/
inductive DeclarationStuck (d : Nat) : Nat → List Token → List Char → List Char → Labels → Prop where
  | keyword {mid : List Char} (hMiss : ∀ rest, ¬ (Token.word "let".toList).Read mid rest) :
      DeclarationStuck d 0 [] mid mid (.single (Text.quoted "let"))
  | name {mid : List Char} (hMiss : ∀ x ∈ mid.head?, isNameStart x = false) :
      DeclarationStuck d 0 [.word "let".toList] mid mid (.single "identifier")
  | type {name : String} {mid : List Char} (hName : IsName name.toList)
      (hMiss : ∀ type rest, ¬ (Token.word (TypeName.word type).toList).Read mid rest) :
      DeclarationStuck d 0 [.word "let".toList, .word name.toList, .mark ':'] mid mid
        (.single "type name")
  | initializer {k : Nat} {name : String} {type : Option TypeName} {ts : List Token}
      {mid rest : List Char} {labels : Labels} (hName : IsName name.toList)
      (h : InitializerStuck d k ts mid rest labels) :
      DeclarationStuck d k (heading name type ++ ts) mid rest labels

theorem DeclarationStuck.suffix (h : DeclarationStuck d k ts mid rest labels) : rest <:+ mid := by
  cases h with
  | keyword | name | type => exact List.suffix_refl _
  | initializer _ h => exact h.suffix

/-- What a parser of declarations can do at a place with a given depth left. -/
inductive DeclarationOutcome (d : Nat) (c : Cursor) : Outcome Variable → Prop where
  | success {v : Variable} {ts : List Token} {rest : List Char} (hSpelling : v.Spelling ts)
      (hForm : v.WellFormed) (hNesting : ∀ e ∈ v.initializer, e.nesting < d)
      (hWritten : Written ts c.rest rest) : DeclarationOutcome d c (.success v (c.before rest))
  | failure {k : Nat} {ts : List Token} {mid rest : List Char} {labels : Labels}
      (hStuck : DeclarationStuck d k ts mid rest labels) (hWritten : Written ts c.rest mid) :
      DeclarationOutcome d c (.failure
        ⟨(c.before rest).offset, labels, decide (rest.length < c.rest.length)⟩)
  | tooDeep {name : String} {type : Option TypeName} {ts : List Token} {mid : List Char}
      (hOpening : Opening d d ts) (hWritten : Written (heading name type ++ .mark '=' :: ts) c.rest mid) :
      DeclarationOutcome d c (.halted .tooDeep)

/-- A declaration whose name and type have been read goes on as its initializer
does. -/
theorem declarationOutcome_of_heading {name : String} {type : Option TypeName}
    (h : Written (heading name type) c.rest mid) (hName : IsName name.toList)
    (hNone : type = none → mid.head? ≠ some ':') :
    DeclarationOutcome d c (declaration.step d c) := by
  have hMid : (c.before mid).rest = mid := Cursor.rest_before h.suffix
  have hHeading := heading_of_written (d := d) h hNone
  have hShorter : mid.length < c.rest.length := h.length_lt (by simp [heading])
  have hInner := initializer_outcome d (c.before mid)
  generalize hOutcome : initializer.step d (c.before mid) = outcome at hInner
  cases hInner with
  | @success value ts rest hSpelling hForm hNesting hWritten =>
      rw [hMid] at hWritten
      rw [declaration_of_initializer hHeading hOutcome, Cursor.before_before h.suffix hWritten.suffix]
      exact .success (.mk name type hSpelling) ⟨hName, hForm⟩ hNesting (h.append hWritten)
  | @failure k ts last rest labels hStuck hWritten =>
      rw [hMid] at hWritten
      have hRest : rest <:+ mid := hStuck.suffix.trans hWritten.suffix
      have hMoved : rest.length < c.rest.length := Nat.lt_of_le_of_lt hRest.length_le hShorter
      rw [declaration_of_initializer_failure hHeading hOutcome
        ((Cursor.offset_lt_before h.suffix).mpr hShorter), Cursor.before_before h.suffix hRest]
      have hLater := DeclarationOutcome.failure (c := c) (.initializer hName hStuck) (h.append hWritten)
      simpa [hMoved] using hLater
  | tooDeep hOpening hWritten =>
      rw [hMid] at hWritten
      rw [declaration_of_initializer_halted hHeading hOutcome]
      exact .tooDeep hOpening (h.append hWritten)

/-- A name stands wherever one can begin. -/
theorem exists_name {text : List Char} (h : ¬ ∀ x ∈ text.head?, isNameStart x = false) :
    ∃ (name : String) (rest : List Char), (Token.word name.toList).Read text rest := by
  simp only [Classical.not_forall, Bool.not_eq_false] at h
  obtain ⟨x, hx, hStart⟩ := h
  obtain ⟨tail, rfl⟩ := List.head?_eq_some_iff.mp hx
  obtain ⟨name, rest, hName⟩ := read_word hStart tail
  exact ⟨String.ofList name, rest, by rwa [String.toList_ofList]⟩

/-- Everything that can become of a declaration. -/
theorem declaration_outcome (d : Nat) (c : Cursor) :
    DeclarationOutcome d c (declaration.step d c) := by
  by_cases hKeyword : ∃ mid, (Token.word "let".toList).Read c.rest mid
  · obtain ⟨afterLet, hLet⟩ := hKeyword
    by_cases hStart : ∀ x ∈ afterLet.head?, isNameStart x = false
    · rw [declaration_of_name_miss hLet hStart]
      have hStuck := DeclarationOutcome.failure (d := d) (c := c) (.name hStart) (.single hLet)
      simpa [hLet.length_lt] using hStuck
    · obtain ⟨name, afterName, hName⟩ := exists_name hStart
      by_cases hColon : afterName.head? = some ':'
      · obtain ⟨afterColon, hMark⟩ := read_mark (c := c.before afterName) (x := ':') (by decide)
          (by rwa [Cursor.rest_before (hName.suffix.trans hLet.suffix)])
        rw [Cursor.rest_before (hName.suffix.trans hLet.suffix)] at hMark
        by_cases hType : ∃ type mid, (Token.word (TypeName.word type).toList).Read afterColon mid
        · obtain ⟨type, mid, hType⟩ := hType
          have hHeading : Written (heading name (some type)) c.rest mid :=
            .cons hLet (.cons hName (.cons hMark (.single hType)))
          exact declarationOutcome_of_heading hHeading hName.valid (by simp)
        · have hMiss : ∀ type mid, ¬ (Token.word (TypeName.word type).toList).Read afterColon mid :=
            fun type mid hRead => hType ⟨type, mid, hRead⟩
          rw [declaration_of_type_miss hLet hName hMark hMiss]
          have hWritten := Written.cons hLet (.cons hName (.single hMark))
          have hStuck := DeclarationOutcome.failure (d := d) (c := c) (.type hName.valid hMiss) hWritten
          simpa [hWritten.length_lt (by simp)] using hStuck
      · have hHeading : Written (heading name none) c.rest afterName :=
          .cons hLet (.single hName)
        exact declarationOutcome_of_heading hHeading hName.valid fun _ => hColon
  · have hMiss : ∀ mid, ¬ (Token.word "let".toList).Read c.rest mid :=
      fun mid hRead => hKeyword ⟨mid, hRead⟩
    rw [declaration_of_keyword_miss hMiss]
    have hStuck := DeclarationOutcome.failure (d := d) (c := c) (.keyword hMiss) (.nil c.rest)
    simpa [Failure.here] using hStuck

/-! Spelled declarations are read back. -/

theorem initializer_head_ne_colon {value : Option Expr} {text : List Char}
    (h : InitializerSpelling value ts) (hWritten : Written ts text rest) :
    text.head? ≠ some ':' := by
  cases h with
  | none =>
      rw [(written_single hWritten).head?]
      decide
  | some h =>
      cases hWritten with
      | cons hEquals _ =>
          rw [hEquals.head?]
          decide

theorem initializer_of_spelling {value : Option Expr} (h : InitializerSpelling value ts)
    (hForm : ∀ e ∈ value, e.WellFormed) (hNesting : ∀ e ∈ value, e.nesting < d)
    (hWritten : Written ts c.rest rest) :
    initializer.step d c = .success value (c.before rest) := by
  cases h with
  | none => exact initializer_of_semicolon (written_single hWritten)
  | @some e ts hSpelling =>
      cases hWritten with
      | @cons _ _ _ mid _ hEquals hOthers =>
          obtain ⟨last, hExpr, hLast⟩ := written_append hOthers
          have hSemicolon := written_single hLast
          have hMid : (c.before mid).rest = mid := Cursor.rest_before hEquals.suffix
          have hSuffix := hExpr.suffix.trans hEquals.suffix
          have hReached : (c.before last).rest = last := Cursor.rest_before hSuffix
          have hEnd : NoOperator last := noOperator_of_head? hSemicolon.head? (by decide)
          have hExpression : expression.step d (c.before mid) = .success e (c.before last) := by
            rw [expression_of_spelling hSpelling (hForm e rfl) (hNesting e rfl) (by rwa [hMid]) hEnd,
              Cursor.before_before hEquals.suffix hExpr.suffix]
          have hValue : (between (symbol '=') (symbol ';') expression).step d c =
              .success e ((c.before last).before rest) :=
            enclosed_of_success hEquals hExpression (by rwa [hReached])
          rw [initializer_of_success hValue, Cursor.before_before hSuffix hSemicolon.suffix]

/-- A spelled declaration is read back, whatever comes after its semicolon. -/
theorem declaration_of_spelling {v : Variable} (hSpelling : v.Spelling ts) (hForm : v.WellFormed)
    (hNesting : ∀ e ∈ v.initializer, e.nesting < d) (hWritten : Written ts c.rest rest) :
    declaration.step d c = .success v (c.before rest) := by
  cases hSpelling with
  | @mk name type value ts h =>
      obtain ⟨mid, hHead, hTail⟩ := written_append hWritten
      have hMid : (c.before mid).rest = mid := Cursor.rest_before hHead.suffix
      have hInitializer := initializer_of_spelling (c := c.before mid) h hForm.2 hNesting
        (by rwa [hMid])
      rw [Cursor.before_before hHead.suffix hTail.suffix] at hInitializer
      exact declaration_of_initializer
        (heading_of_written hHead fun _ => initializer_head_ne_colon h hTail) hInitializer

end Grammar

end Scriptlet
