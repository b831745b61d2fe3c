import Scriptlet.Proofs.Entry

namespace Scriptlet

open Grammar

/-- The texts of the tokens that a label of an error stands for. -/
inductive Names : String → List Char → Prop where
  | digits {run : List Char} (h : IsDigits run) : Names "number" run
  | pointed {whole fraction : List Char} (hWhole : IsDigits whole)
      (hFraction : ∀ c ∈ fraction, c.isDigit = true) : Names "number" (whole ++ '.' :: fraction)
  | quotation {body : List Char} (h : '"' ∉ body) : Names "string" ('"' :: body ++ ['"'])
  | truth (value : Bool) : Names "boolean" (boolWord value)
  | name {name : List Char} (h : IsName name) : Names "identifier" name
  | type (type : TypeName) : Names "type name" type.word.toList
  | itself {word : String} (h : word ∈ ["(", ")", "=", ";", "let", "\""]) :
      Names (Text.quoted word) word.toList

/-- The end of the source is no token. -/
theorem Names.ne_end {label : String} {text : List Char} (h : Names label text) :
    label ≠ "end of input" := by
  cases h with
  | digits | pointed | quotation | truth | name | type => decide
  | itself h =>
      have hWords : ∀ word ∈ ["(", ")", "=", ";", "let", "\""], Text.quoted word ≠ "end of input" := by
        decide +kernel
      exact hWords _ h

/-- How tokens that went wrong can be completed, where `complete` says which
lists of tokens are whole. Each label names a token that may come next, and an
open string may be closed after a blank. -/
inductive Viable (complete : List Token → Prop) :
    List Token → List Char → List Char → Labels → Prop where
  | next {ts : List Token} {mid : List Char} {labels : Labels} (hSome : ∃ label, label ∈ labels.toList)
      (h : ∀ label ∈ labels.toList, ∃ (t : Token) (us : List Token),
        Names label t.text ∧ complete (ts ++ t :: us)) : Viable complete ts mid mid labels
  | quote {ts us : List Token} {body : List Char} (hBody : '"' ∉ body)
      (h : complete (ts ++ .quotation (body ++ [' ']) :: us)) :
      Viable complete ts ('"' :: body) [] (.single (Text.quoted (String.singleton '"')))

theorem Viable.single {complete : List Token → Prop} {ts us : List Token} {t : Token}
    {mid : List Char} {label : String} (hNames : Names label t.text) (h : complete (ts ++ t :: us)) :
    Viable complete ts mid mid (.single label) := by
  refine .next ⟨label, Labels.mem_single.mpr rfl⟩ fun other hOther => ?_
  obtain rfl := Labels.mem_single.mp hOther
  exact ⟨t, us, hNames, h⟩

/-- Whole tokens that are part of something bigger are completed with it. -/
theorem Viable.wrap {complete bigger : List Token → Prop} {ts : List Token} {mid rest : List Char}
    {labels : Labels} (h : Viable complete ts mid rest labels) (before after : List Token)
    (hBigger : ∀ all, complete all → bigger (before ++ (all ++ after))) :
    Viable bigger (before ++ ts) mid rest labels := by
  cases h with
  | next hSome h =>
      refine .next hSome fun label hLabel => ?_
      obtain ⟨t, us, hNames, hAll⟩ := h label hLabel
      refine ⟨t, us ++ after, hNames, ?_⟩
      simpa using hBigger _ hAll
  | @quote us body hBody hAll =>
      have hWhole : bigger ((before ++ ts) ++ .quotation (body ++ [' ']) :: (us ++ after)) := by
        simpa using hBigger _ hAll
      exact .quote hBody hWhole

/-! Expressions. -/

/-- Tokens of an expression that can be read at a depth. -/
def IsExpression (d : Nat) (ts : List Token) : Prop :=
  ∃ e : Expr, e.Spelling ts ∧ e.WellFormed ∧ e.nesting < d

section Operand

variable {d k : Nat} {e : Expr} {ts us : List Token} (hSpelling : e.Spelling us)
  (hForm : e.WellFormed) (hOperand : e.isOperation = false)

include hSpelling hForm hOperand

/-- Where an operand is due any operand will do. -/
theorem Grammar.Due.complete (h : Due d ts) (hNesting : e.nesting < d) :
    IsExpression d (ts ++ us) := by
  cases h with
  | start => exact ⟨e, hSpelling, hForm, hNesting⟩
  | @operator left ts op hLeft hLeftForm hLeftNesting =>
      refine ⟨.operation op left e, ?_, ⟨hLeftForm, hForm, hOperand⟩, Nat.max_lt.mpr ⟨hLeftNesting, hNesting⟩⟩
      rw [List.append_assoc]
      exact .operation hLeft hSpelling

end Operand

/-- An operand closes all open groups if as many parentheses come after it. -/
theorem Grammar.Opening.complete {d k : Nat} {e : Expr} {ts us : List Token} (h : Opening d k ts)
    (hSpelling : e.Spelling us) (hForm : e.WellFormed) (hOperand : e.isOperation = false)
    (hNesting : k + e.nesting < d) :
    IsExpression d (ts ++ (us ++ List.replicate k .closeParen)) := by
  induction h with
  | here hDue =>
      rw [List.replicate_zero, List.append_nil]
      exact hDue.complete hSpelling hForm hOperand (by omega)
  | @group d k ts vs hDue inner ih =>
      obtain ⟨whole, hWhole, hWholeForm, hWholeNesting⟩ := ih (by omega)
      have hGroup := hDue.complete (.parens hWhole) hWholeForm rfl (Nat.succ_lt_succ hWholeNesting)
      simpa [List.replicate_succ'] using hGroup

theorem isName_x : IsName "x".toList := by decide

theorem digits_one : IsDigits ['1'] := by decide

theorem spelling_one : Expr.Spelling (.literal (.int 1)) [.digits ['1']] :=
  .literal (@Literal.Spelling.int ['1'] digits_one)

/-- Every label for an operand names one. A parenthesis needs room for another
level. -/
theorem operandLabels_complete {d k : Nat} {ts : List Token} {label : String}
    (h : Opening d k ts) (hDepth : k + 1 < d) (hLabel : label ∈ operandLabels.toList) :
    ∃ (t : Token) (us : List Token), Names label t.text ∧ IsExpression d (ts ++ t :: us) := by
  have hAtom : ∀ {e : Expr} {t : Token}, e.Spelling [t] → e.WellFormed → e.isOperation = false →
      e.nesting = 0 → IsExpression d (ts ++ t :: List.replicate k .closeParen) := by
    intro e t hSpelling hForm hOperand hNesting
    exact h.complete hSpelling hForm hOperand (by omega)
  simp only [operandLabels, Labels.mem_union, Labels.mem_single] at hLabel
  rcases hLabel with (((rfl | rfl) | rfl) | rfl) | rfl
  · exact ⟨.digits ['1'], _, .digits digits_one, hAtom spelling_one trivial rfl rfl⟩
  · have hEmpty : '"' ∉ "".toList := by decide
    exact ⟨.quotation [], _, .quotation hEmpty,
      hAtom (.literal (.string "")) hEmpty rfl rfl⟩
  · exact ⟨.word (boolWord true), _, .truth true, hAtom (.literal (.bool true)) trivial rfl rfl⟩
  · have hGroup := h.complete (.parens spelling_one) trivial rfl hDepth
    exact ⟨.openParen, _, .itself (by decide), hGroup⟩
  · exact ⟨.word "x".toList, _, .name isName_x,
      hAtom (.var "x") ⟨isName_x, by decide, by decide⟩ rfl rfl⟩

theorem Grammar.Stuck.viable {d k : Nat} {ts : List Token} {mid rest : List Char} {labels : Labels}
    (h : Stuck d k ts mid rest labels) (hDepth : k + 1 < d) :
    Viable (IsExpression d) ts mid rest labels := by
  cases h with
  | operand hOpening hMiss =>
      exact .next ⟨_, Labels.mem_union.mpr (.inr (Labels.mem_single.mpr rfl))⟩ fun label hLabel =>
        operandLabels_complete hOpening hDepth hLabel
  | @quote _ _ body hOpening hBody =>
      have hClosed : '"' ∉ body ++ [' '] := by simpa using hBody
      have hText : (String.ofList (body ++ [' '])).toList = body ++ [' '] := String.toList_ofList
      have hSpelling : Expr.Spelling (.literal (.string (String.ofList (body ++ [' ']))))
          [.quotation (body ++ [' '])] := by
        have hString := Literal.Spelling.string (String.ofList (body ++ [' ']))
        rw [hText] at hString
        exact .literal hString
      have hForm : '"' ∉ (String.ofList (body ++ [' '])).toList := by rwa [hText]
      exact .quote hBody (hOpening.complete hSpelling hForm rfl (by simp [Expr.nesting]; omega))
  | @close k ts us e _ hOpening hSpelling hForm hNesting hEnd hMiss =>
      have hGroup := hOpening.complete (.parens hSpelling) hForm rfl
        (by simp only [Expr.nesting]; omega)
      have hClosed : IsExpression d ((ts ++ .openParen :: us) ++
          .closeParen :: List.replicate k .closeParen) := by
        simpa using hGroup
      exact .single (t := .closeParen) (.itself (by decide)) hClosed

/-! Declarations. -/

def IsInitializer (d : Nat) (ts : List Token) : Prop :=
  ∃ value, InitializerSpelling value ts ∧ (∀ e ∈ value, e.WellFormed) ∧ ∀ e ∈ value, e.nesting < d

def IsDeclaration (d : Nat) (ts : List Token) : Prop :=
  ∃ v : Variable, v.Spelling ts ∧ v.WellFormed ∧ ∀ e ∈ v.initializer, e.nesting < d

theorem isInitializer_semicolon {d : Nat} : IsInitializer d [.semicolon] :=
  ⟨none, .none, by simp, by simp⟩

theorem IsExpression.initializer {d : Nat} {ts : List Token} (h : IsExpression d ts) :
    IsInitializer d ([.mark '='] ++ (ts ++ [.semicolon])) := by
  obtain ⟨e, hSpelling, hForm, hNesting⟩ := h
  exact ⟨some e, .some hSpelling, by simpa using hForm, by simpa using hNesting⟩

theorem IsInitializer.declaration {d : Nat} {ts : List Token} (h : IsInitializer d ts) (name : String)
    (type : Option TypeName) (hName : IsName name.toList) : IsDeclaration d (heading name type ++ ts) := by
  obtain ⟨value, hSpelling, hForm, hNesting⟩ := h
  exact ⟨⟨name, type, value⟩, .mk name type hSpelling, ⟨hName, hForm⟩, hNesting⟩

theorem Grammar.InitializerStuck.viable {d k : Nat} {ts : List Token} {mid rest : List Char}
    {labels : Labels} (h : InitializerStuck d k ts mid rest labels) (hDepth : k + 1 < d) :
    Viable (IsInitializer d) ts mid rest labels := by
  cases h with
  | start =>
      refine .next ⟨_, Labels.mem_union.mpr (.inl (Labels.mem_single.mpr rfl))⟩ fun label hLabel => ?_
      rcases Labels.mem_union.mp hLabel with hEquals | hSemicolon
      · rw [Labels.mem_single.mp hEquals]
        have hOne : IsExpression d [.digits ['1']] := ⟨_, spelling_one, trivial, by simp [Expr.nesting]; omega⟩
        exact ⟨.mark '=', _, .itself (by decide), hOne.initializer⟩
      · rw [Labels.mem_single.mp hSemicolon]
        exact ⟨.semicolon, [], .itself (by decide), isInitializer_semicolon⟩
  | expression h => exact (h.viable hDepth).wrap [.mark '='] [.semicolon] fun _ => IsExpression.initializer
  | semicolon hSpelling hForm hNesting =>
      have hWhole : IsInitializer d _ := IsExpression.initializer ⟨_, hSpelling, hForm, hNesting⟩
      exact .single (t := .semicolon) (.itself (by decide)) hWhole

theorem Grammar.DeclarationStuck.viable {d k : Nat} {ts : List Token} {mid rest : List Char}
    {labels : Labels} (h : DeclarationStuck d k ts mid rest labels) (hDepth : k + 1 < d) :
    Viable (IsDeclaration d) ts mid rest labels := by
  have hEnd := isInitializer_semicolon (d := d)
  cases h with
  | keyword =>
      exact .single (t := .word "let".toList) (.itself (by decide))
        (hEnd.declaration "x" none isName_x)
  | name =>
      exact .single (t := .word "x".toList) (.name isName_x) (hEnd.declaration "x" none isName_x)
  | @type name _ hName =>
      exact .single (t := .word (TypeName.word .int).toList) (.type .int)
        (hEnd.declaration name (some .int) hName)
  | @initializer _ name type ts _ _ _ hName h =>
      refine (h.viable hDepth).wrap (heading name type) [] fun all hAll => ?_
      rw [List.append_nil]
      exact hAll.declaration name type hName

/-! Statements and sources. -/

theorem wellFormed_let : Expr.WellFormed (.var "let") := ⟨isName_let, by decide, by decide⟩

/-- What could be a statement is completed to an expression; the word for
declarations is one, too. -/
theorem Grammar.StatementStuck.viable {d k : Nat} {ts : List Token} {mid rest : List Char}
    {labels : Labels} (h : StatementStuck d k ts mid rest labels) (hDepth : k + 1 < d) :
    Viable (IsExpression d) ts mid rest labels := by
  cases h with
  | start =>
      refine .next ⟨_, Labels.mem_union.mpr (.inl (Labels.mem_single.mpr rfl))⟩ fun label hLabel => ?_
      rcases Labels.mem_union.mp hLabel with hLet | hOperand
      · rw [Labels.mem_single.mp hLet]
        exact ⟨.word "let".toList, [], .itself (by decide), _, .var "let", wellFormed_let,
          by simp [Expr.nesting]; omega⟩
      · exact operandLabels_complete (.here .start) hDepth hOperand
  | expression h => exact h.viable hDepth

/-- Tokens of a whole source. -/
def IsSentence (limit : Nat) (filename : String) (entry : Entry) (ts : List Token) : Prop :=
  ∃ node, Sentence limit filename entry ts node

/-- An expression may come after any statements. With a bare expression at the
end it does not matter that the word for declarations may be in front of it. -/
theorem isSentence_append {limit : Nat} {filename : String} {pieces : List Piece} {ts : List Token}
    (hWithin : ∀ p ∈ pieces, p.Within limit) (hChain : pieces.IsChain Piece.MayFollow)
    (h : IsExpression limit ts) : IsSentence limit filename .program (Piece.allTokens pieces ++ ts) := by
  obtain ⟨e, hSpelling, hForm, hNesting⟩ := h
  let last : Piece := ⟨.expression e, ts, .bare hSpelling, hForm⟩
  have hLast : last.Within limit := fun inner hInner => Option.some.inj hInner ▸ hNesting
  have hFollows : ∀ p : Piece, p.MayFollow last := by
    intro p _ name hTokens
    rcases hSpelling.after_word hTokens with hNil | ⟨op, vs, hOperator⟩
    · exact List.cons_ne_nil _ _ hNil
    · exact absurd (List.cons.inj hOperator).1 Token.noConfusion
  have hAll : IsSentence limit filename .program (Piece.allTokens (pieces ++ [last])) := by
    refine ⟨_, .program (fun p hp => ?_) ?_⟩
    · rcases List.mem_append.mp hp with hp | hp
      · exact hWithin p hp
      · exact List.mem_singleton.mp hp ▸ hLast
    · refine List.isChain_append.mpr ⟨hChain, .singleton last, fun p _ q hq => ?_⟩
      exact Option.some.inj hq ▸ hFollows p
  have hTokens : Piece.allTokens (pieces ++ [last]) = Piece.allTokens pieces ++ ts := by
    simp [Piece.allTokens, last]
  rwa [hTokens] at hAll

/-- A source that went wrong was complete, or it can be completed. -/
theorem SourceStuck.viable {limit k : Nat} {filename : String} {entry : Entry} {ts : List Token}
    {mid rest : List Char} {labels : Labels}
    (h : SourceStuck limit filename entry k ts mid rest labels) (hDepth : k + 1 < limit) :
    (IsSentence limit filename entry ts ∧ rest = mid ∧ labels = .single "end of input") ∨
      Viable (IsSentence limit filename entry) ts mid rest labels := by
  have hAlone : ∀ {complete : List Token → Prop}, Viable complete ts mid rest labels →
      (∀ all, complete all → IsSentence limit filename entry all) →
      Viable (IsSentence limit filename entry) ts mid rest labels := by
    intro complete hViable hComplete
    refine hViable.wrap [] [] fun all hAll => ?_
    rw [List.append_nil]
    exact hComplete all hAll
  cases h with
  | trailing h => exact .inl ⟨⟨_, h⟩, rfl, rfl⟩
  | @program pieces k ts _ _ _ hWithin hChain h =>
      refine .inr ((h.viable hDepth).wrap (Piece.allTokens pieces) [] fun all hAll => ?_)
      rw [List.append_nil]
      exact isSentence_append hWithin hChain hAll
  | statement h =>
      refine .inr (hAlone (h.viable hDepth) ?_)
      rintro all ⟨e, hSpelling, hForm, hNesting⟩
      exact ⟨_, .bare hSpelling hForm hNesting⟩
  | expression h =>
      refine .inr (hAlone (h.viable hDepth) ?_)
      rintro all ⟨e, hSpelling, hForm, hNesting⟩
      exact ⟨_, .expression hSpelling hForm hNesting⟩
  | declaration h =>
      refine .inr (hAlone (h.viable hDepth) ?_)
      rintro all ⟨v, hSpelling, hForm, hNesting⟩
      exact ⟨_, .declaration hSpelling hForm hNesting⟩

theorem Sentence.valid {limit : Nat} {filename : String} {entry : Entry} {ts : List Token} {node : Node}
    (h : Sentence limit filename entry ts node) : ∀ t ∈ ts, t.Valid := by
  cases h with
  | @program pieces hWithin hChain =>
      intro t ht
      obtain ⟨p, _, hp⟩ := List.mem_flatMap.mp ht
      exact p.spelling.valid p.form t hp
  | declared h hForm => exact h.valid hForm
  | bare h hForm => exact h.valid hForm
  | expression h hForm => exact h.valid hForm
  | declaration h hForm => exact h.valid hForm

end Scriptlet
