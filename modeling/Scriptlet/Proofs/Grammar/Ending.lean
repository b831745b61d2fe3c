import Scriptlet.Proofs.Grammar.Layout

namespace Scriptlet

open Grammar

namespace Grammar

variable {t : Token} {ts : List Token} {head run text : List Char} {offset : Nat}

/-- The last character of a text that is no blank is a semicolon, and it stands
at an offset. -/
def SemicolonAt (text : List Char) (offset : Nat) : Prop :=
  ∃ head run, text = head ++ ';' :: run ∧ IsBlank run ∧ head.length = offset

/-- A text has one last character that is no blank. -/
theorem last_visible_unique {x y : Char} {head' run' : List Char}
    (h : head ++ x :: run = head' ++ y :: run') (hx : isBlank x = false) (hy : isBlank y = false)
    (hRun : IsBlank run) (hRun' : IsBlank run') : head = head' ∧ x = y ∧ run = run' := by
  have hBlanks : ∀ {front back : List Char} {z : Char}, isBlank z = false → IsBlank back →
      (front ++ z :: back).reverse.takeWhile isBlank = back.reverse := by
    intro front back z hz hBack
    rw [List.reverse_append, List.reverse_cons, List.append_assoc]
    apply takeWhile_run
    · intro w hw
      exact hBack w (List.mem_reverse.mp hw)
    · intro w hw
      obtain rfl := Option.some.inj hw
      exact hz
  have hSame : run.reverse = run'.reverse := by
    rw [← hBlanks hx hRun, ← hBlanks hy hRun', h]
  obtain rfl := List.reverse_injective hSame
  have hWhole : (head ++ [x]) ++ run = (head' ++ [y]) ++ run := by simpa using h
  obtain ⟨rfl, hLast⟩ := List.append_inj' (List.append_cancel_right hWhole) rfl
  obtain rfl := List.singleton_injective hLast
  exact ⟨rfl, rfl, rfl⟩

/-- The semicolon is the only token that ends with one. -/
theorem Token.Valid.eq_semicolon (h : t.Valid) (hLast : t.text.getLast? = some ';') :
    t = .semicolon := by
  have hMem : ';' ∈ t.text := List.mem_of_getLast? hLast
  cases t with
  | digits run => exact absurd (h.2 ';' hMem) (by decide)
  | pointed whole fraction =>
      rcases List.mem_append.mp hMem with hWhole | hFraction
      · exact absurd (h.1.2 ';' hWhole) (by decide)
      · rcases List.mem_cons.mp hFraction with hPoint | hFraction
        · exact absurd hPoint (by decide)
        · exact absurd (h.2 ';' hFraction) (by decide)
  | quotation body =>
      have hQuote : (quotation body).text.getLast? = some '"' := by
        show ('"' :: body ++ ['"']).getLast? = some '"'
        rw [List.getLast?_append_of_ne_nil _ (by simp)]
        rfl
      rw [hQuote] at hLast
      exact absurd hLast (by decide)
  | word name => exact absurd (IsName.isNamePart h ';' hMem) (by decide)
  | operator op =>
      have hNone := operator_all (fun y => y != ';') (by decide) op ';' hMem
      exact absurd hNone (by decide)
  | mark y =>
      obtain rfl := List.mem_singleton.mp hMem
      rfl

/-- Tokens that reach to the end of a text end with a semicolon when the text
does. -/
theorem Written.last_semicolon {lead : List Char} (h : Written ts text []) (hTokens : ts ≠ [])
    (hEnd : SemicolonAt (lead ++ text) offset) : ts.getLast? = some .semicolon := by
  obtain ⟨head, run, hText, hRun, _⟩ := hEnd
  obtain ⟨others, t, rfl⟩ := (List.eq_nil_or_concat' ts).resolve_left hTokens
  obtain ⟨mid, hOthers, hLast⟩ := written_append h
  have hToken := (written_single hLast).valid
  obtain ⟨blanks, hBlanks, hMid, _⟩ := (written_single hLast).split
  obtain ⟨front, hFront⟩ := hOthers.suffix
  obtain ⟨token, x, hSpelled⟩ := (List.eq_nil_or_concat' t.text).resolve_left hToken.text_ne_nil
  have hLastChar : t.text.getLast? = some x := by rw [hSpelled, List.getLast?_concat]
  have hVisible : (lead ++ front ++ token) ++ x :: blanks = head ++ ';' :: run := by
    rw [← hText, ← hFront, hMid, hSpelled]
    simp
  obtain ⟨_, rfl, _⟩ := last_visible_unique hVisible (hToken.last_noBlank x hLastChar) (by decide)
    hBlanks hRun
  rw [List.getLast?_concat, hToken.eq_semicolon hLastChar]

/-- The semicolon that a text ends with, after whatever the tokens in front of
it take. -/
theorem Token.Read.semicolonAt (h : Token.semicolon.Read text []) (head : List Char) :
    SemicolonAt (head ++ text) head.length := by
  obtain ⟨run, hRun, hText, _⟩ := h.split
  exact ⟨head, run, by simp [hText, Token.semicolon, Token.text], hRun, rfl⟩

theorem SemicolonAt.unique {offset' : Nat} (h : SemicolonAt text offset)
    (h' : SemicolonAt text offset') : offset = offset' := by
  obtain ⟨head, run, rfl, hRun, rfl⟩ := h
  obtain ⟨head', run', hText, hRun', rfl⟩ := h'
  obtain ⟨rfl, _, _⟩ := last_visible_unique hText (by decide) (by decide) hRun hRun'
  rfl

end Grammar

/-- An expression does not end with a semicolon. -/
theorem Expr.Spelling.last_not_semicolon {e : Expr} {ts : List Token} (h : e.Spelling ts) :
    ts.getLast? ≠ some .semicolon := by
  induction h with
  | literal h => cases h <;> simp [Token.semicolon]
  | var name => simp [Token.semicolon]
  | @parens inner ts h ih =>
      rw [← List.cons_append, List.getLast?_concat]
      simp [Token.closeParen, Token.semicolon]
  | @operation op left right ts us hLeft hRight ihLeft ihRight =>
      have hNonempty := hRight.ne_nil
      rwa [List.getLast?_append_of_ne_nil _ (by simp), List.getLast?_cons_of_ne_nil hNonempty]

end Scriptlet
