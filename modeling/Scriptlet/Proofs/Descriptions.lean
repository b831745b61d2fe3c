import Scriptlet.Description
import Scriptlet.Proofs.Parsing.Inheritance

namespace Scriptlet

open Scriptlet.Parser

variable {Q : (α : Type) → (Cursor → Outcome α) → Prop}

/-! Productions are put together from parsers like any others. -/

namespace Parser.Inherited

variable (h : Inherited Q) {α : Type}

include h

theorem whitespace : Has Q Grammar.whitespace := h.map _ (h.many (h.satisfy _ _))

theorem lexeme {p : Parser α} (hp : Has Q p) : Has Q (Grammar.lexeme p) := h.keepLeft hp h.whitespace

theorem symbol (x : Char) : Has Q (Grammar.symbol x) := h.lexeme (h.satisfy _ _)

theorem nameStart : Has Q Grammar.nameStart := h.orElse (h.satisfy _ _) (h.satisfy _ _)

theorem namePart : Has Q Grammar.namePart := h.orElse h.nameStart (h.satisfy _ _)

theorem integer : Has Q Grammar.integer := h.map _ (h.lexeme (h.many1 (h.satisfy _ _)))

theorem floatLiteral : Has Q Grammar.floatLiteral := by
  have hDigit : Has Q digit := h.satisfy _ _
  exact h.map _ (h.lexeme (h.triple (h.many1 hDigit) (h.satisfy _ _) (h.many hDigit)))

theorem stringLiteral : Has Q Grammar.stringLiteral := by
  have hQuote : Has Q (char '"') := h.satisfy _ _
  have hCharacter : Has Q (noneOf "\"" "string character") := h.satisfy _ _
  have hBody := h.keepRight hQuote (h.many hCharacter)
  exact h.label _ (h.map _ (h.keepLeft hBody (h.lexeme hQuote)))

theorem identifier : Has Q Grammar.identifier :=
  h.label _ (h.lexeme (h.map _ (h.pair h.nameStart (h.many h.namePart))))

theorem operator : Has Q Grammar.operator := by
  have hSymbol : ∀ op, Has Q (Grammar.operatorSymbol op) :=
    fun op => h.keepRight (h.string _) (h.pure op)
  refine h.label _ (h.lexeme (h.choice (hSymbol _) fun q hq => ?_))
  obtain ⟨op, _, rfl⟩ := List.mem_map.mp hq
  exact hSymbol op

theorem statementSeparator : Has Q Grammar.statementSeparator := h.optional (h.symbol ';')

/-! The other productions attempt something that may be given up again. -/

section Attempts

variable (hAttempt : KeptByAttempts Q)

include hAttempt

theorem keyword (word : String) : Has Q (Grammar.keyword word) := by
  have hEnd := h.notFollowedBy "identifier character" h.namePart
  exact h.lexeme (h.label _ (hAttempt (h.keepLeft (h.string word) hEnd)))

theorem number : Has Q Grammar.number :=
  h.label _ (h.map _ (h.orElse (hAttempt h.floatLiteral) h.integer))

theorem boolean : Has Q Grammar.boolean := by
  have hWord : ∀ word value, Has Q (Grammar.keyword word *> Parser.pure value) :=
    fun word (value : Bool) => h.keepRight (h.keyword hAttempt word) (h.pure value)
  exact h.label _ (h.map _ (h.orElse (hWord "true" true) (hWord "false" false)))

theorem literal : Has Q Grammar.literal := by
  refine h.choice (h.number hAttempt) fun q hq => ?_
  simp only [List.mem_cons, List.not_mem_nil, or_false] at hq
  rcases hq with rfl | rfl
  · exact h.stringLiteral
  · exact h.boolean hAttempt

theorem typeName : Has Q Grammar.typeName := by
  have hWord : ∀ type, Has Q (Grammar.typeWord type) :=
    fun type => h.keepRight (h.keyword hAttempt type.word) (h.pure type)
  refine h.label _ (h.choice (hWord _) fun q hq => ?_)
  obtain ⟨type, _, rfl⟩ := List.mem_map.mp hq
  exact hWord type

omit hAttempt in
theorem group {inner : Parser Expr} (hInner : Has Q inner) : Has Q (Grammar.group inner) :=
  h.map _ (h.between (h.symbol '(') (h.symbol ')') hInner)

theorem operand {inner : Parser Expr} (hInner : Has Q inner) : Has Q (Grammar.operand inner) := by
  refine h.choice (h.literal hAttempt) fun q hq => ?_
  simp only [List.mem_cons, List.not_mem_nil, or_false] at hq
  rcases hq with rfl | rfl
  · exact h.group hInner
  · exact h.map _ h.identifier

theorem expression : Has Q Grammar.expression :=
  h.recursive fun _ hInner => h.chainLeft (h.operand hAttempt hInner) (h.map _ h.operator)

theorem typeAnnotation : Has Q Grammar.typeAnnotation :=
  h.optional (h.keepRight (h.symbol ':') (h.typeName hAttempt))

theorem initializer : Has Q Grammar.initializer := by
  have hValue := h.keepLeft (h.keepRight (h.symbol '=') (h.expression hAttempt)) (h.symbol ';')
  exact h.orElse (h.map some hValue) (h.keepRight (h.symbol ';') (h.pure none))

theorem declaration : Has Q Grammar.declaration := by
  have hName := h.keepRight (h.keyword hAttempt "let") h.identifier
  exact h.map _ (h.triple hName (h.typeAnnotation hAttempt) (h.initializer hAttempt))

theorem statement : Has Q Grammar.statement :=
  h.orElse (hAttempt (h.map _ (h.declaration hAttempt))) (h.map _ (h.expression hAttempt))

end Attempts

end Parser.Inherited

/-- Nothing in the production is attempted. -/
def Production.AttemptFree : Production → Prop
  | whitespace | integer | floatLiteral | stringLiteral | identifier | varIdentifier | operator
  | statementSeparator => True
  | _ => False

theorem Parser.Inherited.production (h : Inherited Q) (named : Production)
    (hAttempt : named.AttemptFree ∨ KeptByAttempts Q) : Has Q named.parser := by
  cases named with
  | whitespace => exact h.map _ h.whitespace
  | integer => exact h.map _ h.integer
  | floatLiteral => exact h.map _ h.floatLiteral
  | stringLiteral => exact h.map _ h.stringLiteral
  | identifier => exact h.map _ h.identifier
  | varIdentifier => exact h.map _ (h.map _ h.identifier)
  | operator => exact h.map _ h.operator
  | statementSeparator => exact h.map _ h.statementSeparator
  | statement => exact h.map _ (h.statement (hAttempt.resolve_left id))
  | expression => exact h.map _ (h.expression (hAttempt.resolve_left id))
  | declaration => exact h.map _ (h.declaration (hAttempt.resolve_left id))
  | typeName => exact h.map _ (h.typeName (hAttempt.resolve_left id))
  | number => exact h.map _ (h.number (hAttempt.resolve_left id))
  | boolean => exact h.map _ (h.boolean (hAttempt.resolve_left id))
  | literal => exact h.map _ (h.literal (hAttempt.resolve_left id))
  | parens =>
      have hKept : KeptByAttempts Q := hAttempt.resolve_left id
      exact h.map _ (h.group (h.expression hKept))
  | term =>
      have hKept : KeptByAttempts Q := hAttempt.resolve_left id
      exact h.map _ (h.operand hKept (h.expression hKept))
  | typeAnnotation => exact h.map _ (h.typeAnnotation (hAttempt.resolve_left id))
  | initializer => exact h.map _ (h.initializer (hAttempt.resolve_left id))

namespace Description

mutual

/-- Nothing in the description is attempted. -/
def AttemptFree : Description → Prop
  | satisfy _ _ | string _ | endOfInput | pure _ | reference _ | undefined _ => True
  | attempt _ | keyword _ => False
  | production named => named.AttemptFree
  | notFollowedBy p _ | map _ p | label _ p | many p | recursive _ p => p.AttemptFree
  | bind p f => p.AttemptFree ∧ ∀ value, (f value).AttemptFree
  | keepRight p q | keepLeft p q | chainLeft p q => p.AttemptFree ∧ q.AttemptFree
  | sequence parts => AllAttemptFree parts
  | choice first others => first.AttemptFree ∧ AllAttemptFree others
  | between opening closing p => opening.AttemptFree ∧ closing.AttemptFree ∧ p.AttemptFree

/-- Nothing in any of the descriptions is attempted. -/
def AllAttemptFree : List Description → Prop
  | [] => True
  | p :: rest => p.AttemptFree ∧ AllAttemptFree rest

end

mutual

/-- Whatever a description stands for has the property, provided that the names
around it do. The induction is on the description. -/
theorem toParser_has (h : Inherited Q) : ∀ (description : Description)
    (names : List (String × Parser Value)), (∀ named ∈ names, Has Q named.2) →
      description.AttemptFree ∨ KeptByAttempts Q → Has Q (description.toParser names)
  | satisfy accepts expected, _, _, _ => h.map _ (h.satisfy accepts expected)
  | string word, _, _, _ => h.map _ (h.string word)
  | endOfInput, _, _, _ => h.map (fun _ => Value.absent) h.endOfInput
  | pure value, _, _, _ => h.pure value
  | notFollowedBy p expected, names, hNames, hAttempt =>
      h.map _ (h.notFollowedBy expected (toParser_has h p names hNames hAttempt))
  | map f p, names, hNames, hAttempt => h.map f (toParser_has h p names hNames hAttempt)
  | bind p f, names, hNames, hAttempt =>
      h.bind (toParser_has h p names hNames (hAttempt.imp_left And.left)) fun value =>
        toParser_has h (f value) names hNames (hAttempt.imp_left fun hFree => hFree.2 value)
  | label name p, names, hNames, hAttempt => h.label name (toParser_has h p names hNames hAttempt)
  | keepRight p q, names, hNames, hAttempt =>
      h.keepRight (toParser_has h p names hNames (hAttempt.imp_left And.left))
        (toParser_has h q names hNames (hAttempt.imp_left And.right))
  | keepLeft p q, names, hNames, hAttempt =>
      h.keepLeft (toParser_has h p names hNames (hAttempt.imp_left And.left))
        (toParser_has h q names hNames (hAttempt.imp_left And.right))
  | sequence parts, names, hNames, hAttempt =>
      h.map _ (h.sequence (toParsers_have h parts names hNames hAttempt))
  | choice first others, names, hNames, hAttempt =>
      h.choice (toParser_has h first names hNames (hAttempt.imp_left And.left))
        (toParsers_have h others names hNames (hAttempt.imp_left And.right))
  | attempt p, names, hNames, hAttempt => by
      have hKept : KeptByAttempts Q := hAttempt.resolve_left id
      exact hKept (toParser_has h p names hNames (.inr hKept))
  | many p, names, hNames, hAttempt => h.map _ (h.many (toParser_has h p names hNames hAttempt))
  | between opening closing p, names, hNames, hAttempt =>
      h.between (toParser_has h opening names hNames (hAttempt.imp_left And.left))
        (toParser_has h closing names hNames (hAttempt.imp_left fun hFree => hFree.2.1))
        (toParser_has h p names hNames (hAttempt.imp_left fun hFree => hFree.2.2))
  | chainLeft operand operator, names, hNames, hAttempt =>
      h.chainLeft (toParser_has h operand names hNames (hAttempt.imp_left And.left))
        (h.map _ (toParser_has h operator names hNames (hAttempt.imp_left And.right)))
  | recursive name body, names, hNames, hAttempt =>
      h.recursive fun self hSelf => toParser_has h body ((name, self) :: names)
        (List.forall_mem_cons.mpr ⟨hSelf, hNames⟩) hAttempt
  | reference name, names, hNames, _ => by
      rw [toParser]
      cases hFound : names.lookup name with
      | none => exact fun d => h.halted _
      | some p =>
          obtain ⟨before, after, rfl, _⟩ := List.lookup_eq_some_iff.mp hFound
          exact hNames (name, p) (by simp)
  | undefined name, _, _, _ => fun d => h.halted _
  | production named, _, _, hAttempt => h.production named hAttempt
  | keyword word, _, _, hAttempt => by
      have hKept : KeptByAttempts Q := hAttempt.resolve_left id
      exact h.map _ (h.keyword hKept word)

theorem toParsers_have (h : Inherited Q) : ∀ (parts : List Description)
    (names : List (String × Parser Value)), (∀ named ∈ names, Has Q named.2) →
      AllAttemptFree parts ∨ KeptByAttempts Q → ∀ p ∈ toParsers parts names, Has Q p
  | [], _, _, _ => fun _ hp => absurd hp List.not_mem_nil
  | p :: rest, names, hNames, hAttempt => List.forall_mem_cons.mpr
      ⟨toParser_has h p names hNames (hAttempt.imp_left And.left),
        toParsers_have h rest names hNames (hAttempt.imp_left And.right)⟩

end

/-- Every parser described has a property that is inherited. -/
theorem parser_has (h : Inherited Q) (description : Description)
    (hAttempt : description.AttemptFree ∨ KeptByAttempts Q) : Has Q description.parser :=
  toParser_has h description [] (by simp) hAttempt

end Description

end Scriptlet
