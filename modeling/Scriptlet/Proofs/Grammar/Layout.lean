import Mathlib.Data.List.Chain
import Scriptlet.Proofs.Grammar.Statement

namespace Scriptlet

open Grammar

namespace Grammar

variable {t : Token} {ts us : List Token} {text next after rest : List Char}

/-- Tokens that stand in a text are laid out in the part of it that they take. -/
theorem Written.layout (h : Written ts text rest) : ∃ head, text = head ++ rest ∧ Layout ts head := by
  induction h with
  | nil text => exact ⟨[], rfl, .nil⟩
  | cons first others ih =>
      obtain ⟨head, rfl, hLayout⟩ := ih
      obtain ⟨run, hRun, rfl, _⟩ := first.split
      exact ⟨_, by simp, .cons hRun hLayout⟩

/-! Both ends of a token. -/

theorem noBlank_of_isDigit {x : Char} (h : x.isDigit = true) : isBlank x = false :=
  not_isBlank_of_isNamePart (isNamePart_of_isDigit h)

/-- Tokens do not begin with a blank. -/
theorem Token.Valid.head_noBlank (h : t.Valid) : NoBlank t.text := by
  intro x hx
  cases t with
  | digits run => exact noBlank_of_isDigit (h.2 x (List.mem_of_mem_head? hx))
  | pointed whole fraction =>
      cases whole with
      | nil => exact absurd rfl h.1.1
      | cons y whole =>
          obtain rfl := Option.some.inj hx
          exact noBlank_of_isDigit (h.1.2 y List.mem_cons_self)
  | quotation body =>
      obtain rfl := Option.some.inj hx
      rfl
  | word name =>
      exact not_isBlank_of_isNamePart (IsName.isNamePart h x (List.mem_of_mem_head? hx))
  | operator op =>
      have hNone := operator_all (fun y => !isBlank y) (by decide) op x (List.mem_of_mem_head? hx)
      simpa using hNone
  | mark y =>
      have hMarks : ∀ y ∈ marks, (!isBlank y) = true := List.all_eq_true.mp (by decide)
      obtain rfl := Option.some.inj hx
      simpa using hMarks y h

/-- Tokens do not end with a blank either. -/
theorem Token.Valid.last_noBlank (h : t.Valid) : ∀ x ∈ t.text.getLast?, isBlank x = false := by
  intro x hx
  cases t with
  | digits run => exact noBlank_of_isDigit (h.2 x (List.mem_of_mem_getLast? hx))
  | pointed whole fraction =>
      have hLast : x ∈ ('.' :: fraction) := by
        refine List.mem_of_mem_getLast? ?_
        rwa [Token.text, List.getLast?_append_of_ne_nil _ (by simp)] at hx
      rcases List.mem_cons.mp hLast with rfl | hDigit
      · rfl
      · exact noBlank_of_isDigit (h.2 x hDigit)
  | quotation body =>
      have hText : (quotation body).text = ('"' :: body) ++ ['"'] := rfl
      rw [hText, List.getLast?_append_of_ne_nil _ (by simp)] at hx
      obtain rfl := Option.some.inj hx
      rfl
  | word name =>
      exact not_isBlank_of_isNamePart (IsName.isNamePart h x (List.mem_of_mem_getLast? hx))
  | operator op =>
      have hNone := operator_all (fun y => !isBlank y) (by decide) op x (List.mem_of_mem_getLast? hx)
      simpa using hNone
  | mark y =>
      have hMarks : ∀ y ∈ marks, (!isBlank y) = true := List.all_eq_true.mp (by decide)
      obtain rfl := Option.some.inj hx
      simpa using hMarks y h

theorem NoBlank.append (h : NoBlank text) (hText : text ≠ []) : NoBlank (text ++ after) := by
  cases text with
  | nil => exact absurd rfl hText
  | cons x text => exact h

theorem Token.Ends.append (h : t.Ends text) (hText : text ≠ []) : t.Ends (text ++ after) := by
  cases text with
  | nil => exact absurd rfl hText
  | cons x text => exact h

/-! From a layout to tokens that are read. -/

/-- A text that ends with blanks does not let its last token run on. -/
def EndsBlank (text : List Char) : Prop := ∃ x ∈ text.getLast?, isBlank x = true

theorem Token.read_of_blanks {run : List Char} (hValid : t.Valid) (hRun : IsBlank run)
    (hNext : NoBlank next) (hApart : run ≠ [] ∨ t.Ends next) :
    t.Read (t.text ++ (run ++ next)) next := by
  refine .intro hValid hRun hNext ?_
  cases run with
  | nil =>
      rcases hApart with hBad | hEnds
      · exact absurd rfl hBad
      · exact hEnds
  | cons x run =>
      intro y hy
      obtain rfl := Option.some.inj hy
      exact Token.endsBefore_of_isBlank (hRun x List.mem_cons_self)

theorem Layout.noBlank (h : Layout ts text) (hValid : ∀ t ∈ ts, t.Valid) (hAfter : NoBlank after) :
    NoBlank (text ++ after) := by
  cases h with
  | nil => exact hAfter
  | @cons t ts run text hRun others =>
      have hFirst := hValid t List.mem_cons_self
      rw [List.append_assoc]
      exact hFirst.head_noBlank.append hFirst.text_ne_nil

theorem Layout.ends {u : Token} (h : Layout (u :: us) text) (hValid : u.Valid)
    (hEnds : t.Ends u.text) : t.Ends text := by
  cases h with
  | cons => exact hEnds.append hValid.text_ne_nil

theorem Layout.ne_nil {u : Token} (h : Layout (u :: us) text) (hValid : u.Valid) : text ≠ [] := by
  cases h with
  | cons => exact List.append_ne_nil_of_left_ne_nil hValid.text_ne_nil _

/-- A layout is read as the tokens it was made of when no token runs into the
next one, whatever the blanks between them are. -/
theorem Layout.written (h : Layout ts text) (hValid : ∀ t ∈ ts, t.Valid)
    (hApart : ts.IsChain fun t u => t.Ends u.text) (hAfter : NoBlank after)
    (hLast : EndsBlank text ∨ ∀ t ∈ ts.getLast?, t.Ends after) : Written ts (text ++ after) after := by
  induction h with
  | nil => exact .nil after
  | @cons t ts run text hRun others ih =>
      have hFirst := hValid t List.mem_cons_self
      have hLater : ∀ u ∈ ts, u.Valid := fun u hu => hValid u (List.mem_cons_of_mem t hu)
      rw [List.append_assoc, List.append_assoc]
      cases ts with
      | nil =>
          cases others with
          | nil =>
              refine .single (Token.read_of_blanks hFirst hRun hAfter ?_)
              rcases hLast with ⟨x, hx, hBlank⟩ | hEnds
              · refine .inl fun hNil => ?_
                subst hNil
                rw [List.append_nil, List.append_nil] at hx
                rw [hFirst.last_noBlank x hx] at hBlank
                exact absurd hBlank (by decide)
              · exact .inr (hEnds t rfl)
      | cons u us =>
          have hNext := hLater u List.mem_cons_self
          have hText := others.ne_nil hNext
          have hEnds := others.ends hNext hApart.rel
          refine .cons (Token.read_of_blanks hFirst hRun (others.noBlank hLater hAfter)
            (.inr (hEnds.append hText))) (ih hLater hApart.of_cons ?_)
          rcases hLast with ⟨x, hx, hBlank⟩ | hEnds
          · refine .inl ⟨x, ?_, hBlank⟩
            rwa [← List.append_assoc, List.getLast?_append_of_ne_nil _ hText] at hx
          · exact .inr hEnds

/-! Other texts after the same tokens. -/

/-- Tokens stay the same when something else follows them, as long as the last
of them does not run into it. -/
theorem Written.continued {head mid : List Char} (run new : List Char) (h : Written ts text mid)
    (hText : text = head ++ mid) (hRun : IsBlank run) (hNew : NoBlank new)
    (hEnds : ∀ t : Token, t.Ends mid → t.Ends (run ++ new)) (hNone : ts = [] → run = []) :
    Written ts (head ++ (run ++ new)) new := by
  induction h generalizing head with
  | nil text =>
      rw [List.self_eq_append_left.mp hText, hNone rfl]
      exact .nil new
  | @cons t ts text next mid first others ih =>
      obtain ⟨blanks, hBlanks, hFirst, hLast⟩ := first.split
      have hValid := first.valid
      obtain ⟨tail, hTail⟩ := others.suffix
      rw [hText, ← hTail] at hFirst
      have hSame : head ++ mid = (t.text ++ (blanks ++ tail)) ++ mid := by simpa using hFirst
      obtain rfl := List.append_cancel_right hSame
      cases others with
      | nil =>
          obtain rfl := List.self_eq_append_left.mp hTail.symm
          have hRead : t.Read (t.text ++ ((blanks ++ run) ++ new)) new := by
            refine .intro hValid (fun x hx => ?_) hNew ?_
            · rcases List.mem_append.mp hx with hx | hx
              · exact hBlanks x hx
              · exact hRun x hx
            · cases blanks with
              | nil => exact hEnds t hLast
              | cons x blanks =>
                  intro y hy
                  obtain rfl := Option.some.inj hy
                  exact Token.endsBefore_of_isBlank (hBlanks x List.mem_cons_self)
          simpa using Written.single hRead
      | cons second later =>
          have hNonempty : tail ≠ [] := by
            rintro rfl
            have hShorter := (Written.cons second later).length_lt (List.cons_ne_nil _ _)
            rw [← hTail] at hShorter
            exact absurd hShorter (Nat.lt_irrefl _)
          have hNext : ∀ {after : List Char}, (tail ++ after).head? = next.head? := by
            intro after
            rw [← hTail, List.head?_append_of_ne_nil _ hNonempty, List.head?_append_of_ne_nil _ hNonempty]
          have hLater := ih hTail.symm hEnds fun hNil => absurd hNil (List.cons_ne_nil _ _)
          have hRead : t.Read (t.text ++ (blanks ++ (tail ++ (run ++ new)))) (tail ++ (run ++ new)) := by
            refine .intro hValid hBlanks (fun x hx => ?_) fun x hx => ?_
            · exact first.noBlank x (hNext ▸ hx)
            · refine hLast x ?_
              cases blanks with
              | nil => exact hNext ▸ hx
              | cons y blanks => exact hx
          simpa using Written.cons hRead hLater

/-- Tokens with a blank after each of them. -/
def spaced (ts : List Token) : List Char := ts.flatMap fun t => t.text ++ [' ']

/-- Any tokens can be written one after the other with blanks between them. -/
theorem written_spaced (hValid : ∀ t ∈ ts, t.Valid) : Written ts (spaced ts) [] ∧ NoBlank (spaced ts) := by
  induction ts with
  | nil => exact ⟨.nil [], by simp [NoBlank, spaced]⟩
  | cons t ts ih =>
      obtain ⟨hOthers, hNoBlank⟩ := ih fun u hu => hValid u (List.mem_cons_of_mem t hu)
      have hFirst := hValid t List.mem_cons_self
      have hSpaced : spaced (t :: ts) = t.text ++ ([' '] ++ spaced ts) := by simp [spaced]
      rw [hSpaced]
      refine ⟨.cons (Token.read_of_blanks hFirst (by decide) hNoBlank (.inl (by simp))) hOthers, ?_⟩
      exact hFirst.head_noBlank.append hFirst.text_ne_nil

/-! Tokens of a statement do not run into each other. -/

/-- Only an operator is made longer by something else than a name or a point. -/
theorem Token.ends_of_not_operator {x : Char} (h : t.isOperator = false) (hText : text.head? = some x)
    (hPart : isNamePart x = false) (hPoint : x ≠ '.') : t.Ends text := by
  have hDigit : x.isDigit = false := by
    cases hDigit : x.isDigit with
    | false => rfl
    | true =>
        rw [isNamePart_of_isDigit hDigit] at hPart
        exact absurd hPart (by decide)
  intro y hy
  obtain rfl : x = y := Option.some.inj (hText.symm.trans hy)
  cases t with
  | operator op => exact Bool.noConfusion h
  | digits | pointed | quotation | word | mark => simp [endsBefore, hDigit, hPart, hPoint]

theorem operator_ends_startsOperand {op : Operator} (h : StartsOperand text) :
    (Token.operator op).Ends text := by
  obtain ⟨x, hx, hKind⟩ := h
  rw [Token.ends_operator]
  intro longer y hy hLonger
  obtain rfl := Option.some.inj (hx.symm.trans hy)
  have hMem : x ∈ longer.symbol.toList := by
    rw [hLonger]
    exact List.mem_append_right _ List.mem_cons_self
  exact not_operand_of_operator hMem hKind

theorem ends_operator_of_not_operator {op : Operator} (h : t.isOperator = false) :
    t.Ends op.symbol.toList := by
  have hHeads : ∀ op ∈ operatorOrder, ∃ x, op.symbol.toList.head? = some x ∧
      isNamePart x = false ∧ x ≠ '.' := by
    intro op _
    cases op <;> exact ⟨_, rfl, by decide, by decide⟩
  obtain ⟨x, hx, hPart, hPoint⟩ := hHeads op (mem_operatorOrder op)
  exact Token.ends_of_not_operator h hx hPart hPoint

end Grammar

/-- An expression does not end with an operator. -/
theorem Expr.Spelling.last_not_operator {e : Expr} {ts : List Token} (h : e.Spelling ts) :
    ∀ t ∈ ts.getLast?, t.isOperator = false := by
  induction h with
  | literal h =>
      intro t ht
      obtain rfl := Option.some.inj ht
      cases h <;> rfl
  | var name =>
      intro t ht
      obtain rfl := Option.some.inj ht
      rfl
  | @parens inner ts h ih =>
      intro t ht
      rw [← List.cons_append, List.getLast?_append_of_ne_nil _ (by simp)] at ht
      obtain rfl := Option.some.inj ht
      rfl
  | @operation op left right ts us hLeft hRight ihLeft ihRight =>
      intro t ht
      have hNonempty := hRight.ne_nil
      refine ihRight t ?_
      rwa [List.getLast?_append_of_ne_nil _ (by simp), List.getLast?_cons_of_ne_nil hNonempty] at ht

theorem Expr.Spelling.apart {e : Expr} {ts : List Token} (h : e.Spelling ts) (hForm : e.WellFormed) :
    ts.IsChain fun t u => t.Ends u.text := by
  induction h with
  | literal h => exact .singleton _
  | var name => exact .singleton _
  | @parens inner ts h ih =>
      refine List.isChain_cons.mpr ⟨fun u _ x _ => rfl, ?_⟩
      refine List.isChain_append.mpr ⟨ih hForm, .singleton _, fun t ht u hu => ?_⟩
      obtain rfl := Option.some.inj hu
      exact Token.ends_of_not_operator (h.last_not_operator t ht) rfl (by decide) (by decide)
  | @operation op left right ts us hLeft hRight ihLeft ihRight =>
      refine List.isChain_append.mpr ⟨ihLeft hForm.1, ?_, fun t ht u hu => ?_⟩
      · refine List.isChain_cons.mpr ⟨fun u hu => ?_, ihRight hForm.2.1⟩
        exact operator_ends_startsOperand (startsOperand_of_spelling hRight hForm.2.1 u hu)
      · obtain rfl := Option.some.inj hu
        exact ends_operator_of_not_operator (hLeft.last_not_operator t ht)

namespace Grammar

/-- What an initializer is made of stays apart, and from the tokens before. -/
theorem InitializerSpelling.apart {value : Option Expr} {ts : List Token}
    (h : InitializerSpelling value ts) (hForm : ∀ e ∈ value, e.WellFormed) {t : Token}
    (ht : t.isOperator = false) : (t :: ts).IsChain fun t u => t.Ends u.text := by
  cases h with
  | none =>
      refine List.isChain_cons.mpr ⟨fun u hu => ?_, .singleton _⟩
      obtain rfl := Option.some.inj hu
      exact Token.ends_of_not_operator ht rfl (by decide) (by decide)
  | @some e ts hSpelling =>
      refine List.isChain_cons.mpr ⟨fun u hu => ?_, List.isChain_cons.mpr ⟨fun u _ x _ => rfl, ?_⟩⟩
      · obtain rfl := Option.some.inj hu
        exact Token.ends_of_not_operator ht rfl (by decide) (by decide)
      · refine List.isChain_append.mpr ⟨hSpelling.apart (hForm e rfl), .singleton _, fun t ht u hu => ?_⟩
        obtain rfl := Option.some.inj hu
        exact Token.ends_of_not_operator (hSpelling.last_not_operator t ht) rfl (by decide) (by decide)

end Grammar

/-- Only the word for declarations could run into what follows, the name. -/
theorem Variable.Spelling.apart {v : Variable} {ts : List Token} (h : v.Spelling ts)
    (hForm : v.WellFormed) : ∃ us, ts = .word "let".toList :: .word v.name.toList :: us ∧
      (Token.word v.name.toList :: us).IsChain fun t u => t.Ends u.text := by
  cases h with
  | @mk name type value ts h =>
      refine ⟨typeTokens type ++ ts, rfl, ?_⟩
      cases type with
      | none => exact h.apart hForm.2 rfl
      | some type =>
          refine .cons_cons ?_ (.cons_cons (fun _ _ => rfl) ?_)
          · exact Token.ends_of_not_operator rfl rfl (by decide) (by decide)
          · exact h.apart hForm.2 rfl

/-! Statements in a text. -/

theorem Grammar.typeTokens_valid (type : Option TypeName) : ∀ t ∈ typeTokens type, t.Valid := by
  have hColon : (Token.mark ':').Valid := by
    show ':' ∈ marks
    decide
  intro t ht
  cases type with
  | none => exact absurd ht List.not_mem_nil
  | some type =>
      rcases List.mem_cons.mp ht with rfl | ht
      · exact hColon
      · rw [List.mem_singleton.mp ht]
        exact isName_typeWord type

theorem Grammar.InitializerSpelling.valid {value : Option Expr} {ts : List Token}
    (h : InitializerSpelling value ts) (hForm : ∀ e ∈ value, e.WellFormed) : ∀ t ∈ ts, t.Valid := by
  have hEquals : (Token.mark '=').Valid := by
    show '=' ∈ marks
    decide
  intro t ht
  cases h with
  | none =>
      rw [List.mem_singleton.mp ht]
      exact Token.valid_semicolon
  | @some e ts hSpelling =>
      rcases List.mem_cons.mp ht with rfl | ht
      · exact hEquals
      · rcases List.mem_append.mp ht with ht | ht
        · exact hSpelling.valid (hForm e rfl) t ht
        · rw [List.mem_singleton.mp ht]
          exact Token.valid_semicolon

theorem Variable.Spelling.valid {v : Variable} {ts : List Token} (h : v.Spelling ts)
    (hForm : v.WellFormed) : ∀ t ∈ ts, t.Valid := by
  cases h with
  | @mk name type value ts h =>
      intro t ht
      rcases List.mem_append.mp ht with ht | ht
      · rcases List.mem_cons.mp ht with rfl | ht
        · exact isName_let
        · rcases List.mem_cons.mp ht with rfl | ht
          · exact hForm.1
          · exact typeTokens_valid type t ht
      · exact h.valid hForm.2 t ht

theorem Stmt.Spelling.valid {s : Stmt} {ts : List Token} (h : s.Spelling ts)
    (hForm : s.WellFormed) : ∀ t ∈ ts, t.Valid := by
  cases h with
  | declaration h => exact h.valid hForm
  | bare h => exact h.valid hForm
  | terminated h =>
      intro t ht
      rcases List.mem_append.mp ht with ht | ht
      · exact h.valid hForm t ht
      · rw [List.mem_singleton.mp ht]
        exact Token.valid_semicolon

theorem Stmt.Spelling.ne_nil {s : Stmt} {ts : List Token} (h : s.Spelling ts) : ts ≠ [] := by
  cases h with
  | declaration h =>
      cases h
      simp [heading]
  | bare h => exact h.ne_nil
  | terminated h => simp

/-- A statement begins like an operand, since the word for declarations could
be a variable. -/
theorem Stmt.Spelling.startsOperand {s : Stmt} {ts : List Token} (h : s.Spelling ts)
    (hForm : s.WellFormed) : ∀ t ∈ ts.head?, StartsOperand t.text := by
  cases h with
  | declaration h =>
      intro t ht
      cases h
      obtain rfl := Option.some.inj ht
      exact ⟨'l', rfl, .inr (.inr (.inr (by decide)))⟩
  | bare h => exact startsOperand_of_spelling h hForm
  | @terminated e ts h =>
      intro t ht
      refine startsOperand_of_spelling h hForm t ?_
      cases ts with
      | nil => exact absurd rfl h.ne_nil
      | cons u us => exact ht

end Scriptlet
