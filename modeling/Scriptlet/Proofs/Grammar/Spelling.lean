import Scriptlet.Grammar.Literal
import Scriptlet.Proofs.Grammar.Literal

namespace Scriptlet

open Grammar

/-- The constants that the source can write. A float must be the value of some
decimal text, and strings cannot contain the quote that would end them. -/
def Literal.WellFormed : Literal → Prop
  | int _ => True
  | float value => ∃ whole fraction, IsDigits whole ∧ (∀ c ∈ fraction, c.isDigit = true) ∧
      value = pointed whole fraction
  | string value => '"' ∉ value.toList
  | bool _ => True

/-- A token that spells a constant. Any digit run of the right value will do. -/
inductive Literal.Spelling : Literal → Token → Prop where
  | int {run : List Char} (hRun : IsDigits run) : Spelling (.int (Number.value run)) (.digits run)
  | float {whole fraction : List Char} (hWhole : IsDigits whole)
      (hFraction : ∀ c ∈ fraction, c.isDigit = true) :
      Spelling (.float (pointed whole fraction)) (.pointed whole fraction)
  | string (value : String) : Spelling (.string value) (.quotation value.toList)
  | bool (value : Bool) : Spelling (.bool value) (.word (boolWord value))

namespace Expr

def isOperation : Expr → Bool
  | operation .. => true
  | _ => false

/-- How many parentheses are open around the innermost operand. -/
def nesting : Expr → Nat
  | literal _ => 0
  | var _ => 0
  | parens inner => inner.nesting + 1
  | operation _ left right => max left.nesting right.nesting

/-- The trees that a text can stand for. Operators are combined from the left,
so that a right operand that is an operation itself needs parentheses. -/
def WellFormed : Expr → Prop
  | literal value => value.WellFormed
  | var name => IsName name.toList ∧ name ≠ "true" ∧ name ≠ "false"
  | parens inner => inner.WellFormed
  | operation _ left right => left.WellFormed ∧ right.WellFormed ∧ right.isOperation = false

/-- The tokens of a tree in order. -/
inductive Spelling : Expr → List Token → Prop where
  | literal {value : Literal} {t : Token} (h : value.Spelling t) : Spelling (.literal value) [t]
  | var (name : String) : Spelling (.var name) [.word name.toList]
  | parens {inner : Expr} {ts : List Token} (h : Spelling inner ts) :
      Spelling (.parens inner) (.openParen :: (ts ++ [.closeParen]))
  | operation {op : Operator} {left right : Expr} {ts us : List Token}
      (hLeft : Spelling left ts) (hRight : Spelling right us) :
      Spelling (.operation op left right) (ts ++ .operator op :: us)

/-- What a word stands for as an operand: a truth value or else a variable. -/
def ofWord (name : String) : Expr :=
  if name = "true" then literal (.bool true)
  else if name = "false" then literal (.bool false)
  else var name

@[simp] theorem ofWord_true : ofWord "true" = literal (.bool true) := rfl

@[simp] theorem ofWord_false : ofWord "false" = literal (.bool false) := rfl

theorem ofWord_of_ne {name : String} (hTrue : name ≠ "true") (hFalse : name ≠ "false") :
    ofWord name = var name := by
  rw [ofWord, if_neg hTrue, if_neg hFalse]

theorem ofWord_cases (name : String) :
    name = "true" ∨ name = "false" ∨ name ≠ "true" ∧ name ≠ "false" ∧ ofWord name = var name := by
  by_cases hTrue : name = "true"
  · exact .inl hTrue
  · by_cases hFalse : name = "false"
    · exact .inr (.inl hFalse)
    · exact .inr (.inr ⟨hTrue, hFalse, ofWord_of_ne hTrue hFalse⟩)

theorem spelling_ofWord (name : String) : (ofWord name).Spelling [.word name.toList] := by
  rcases ofWord_cases name with rfl | rfl | ⟨_, _, hVar⟩
  · exact .literal (.bool true)
  · exact .literal (.bool false)
  · exact hVar ▸ .var name

theorem wellFormed_ofWord {name : String} (h : IsName name.toList) : (ofWord name).WellFormed := by
  rcases ofWord_cases name with rfl | rfl | ⟨hTrue, hFalse, hVar⟩
  · exact trivial
  · exact trivial
  · exact hVar ▸ ⟨h, hTrue, hFalse⟩

theorem nesting_ofWord (name : String) : (ofWord name).nesting = 0 := by
  rcases ofWord_cases name with rfl | rfl | ⟨_, _, hVar⟩
  · rfl
  · rfl
  · rw [hVar, nesting]

theorem isOperation_ofWord (name : String) : (ofWord name).isOperation = false := by
  rcases ofWord_cases name with rfl | rfl | ⟨_, _, hVar⟩
  · rfl
  · rfl
  · rw [hVar, isOperation]
    exact fun _ _ _ => Expr.noConfusion

end Expr

theorem Literal.Spelling.valid {value : Literal} {t : Token} (h : value.Spelling t)
    (hForm : value.WellFormed) : t.Valid := by
  cases h with
  | int hRun => exact hRun
  | float hWhole hFraction => exact ⟨hWhole, hFraction⟩
  | string value => exact hForm
  | bool value =>
      cases value with
      | true => exact isName_true
      | false => exact isName_false

/-- All tokens of a tree that can be written can be written. -/
theorem Expr.Spelling.valid {e : Expr} {ts : List Token} (h : e.Spelling ts)
    (hForm : e.WellFormed) : ∀ t ∈ ts, t.Valid := by
  induction h with
  | literal h =>
      intro t ht
      rw [List.mem_singleton.mp ht]
      exact h.valid hForm
  | var name =>
      intro t ht
      rw [List.mem_singleton.mp ht]
      exact hForm.1
  | parens h ih =>
      intro t ht
      simp only [List.mem_cons, List.mem_append, List.not_mem_nil, or_false] at ht
      rcases ht with rfl | ht | rfl
      · exact Token.valid_openParen
      · exact ih hForm t ht
      · exact Token.valid_closeParen
  | operation hLeft hRight ihLeft ihRight =>
      intro t ht
      rcases List.mem_append.mp ht with ht | ht
      · exact ihLeft hForm.1 t ht
      · rcases List.mem_cons.mp ht with rfl | ht
        · trivial
        · exact ihRight hForm.2.1 t ht

theorem Expr.Spelling.ne_nil {e : Expr} {ts : List Token} (h : e.Spelling ts) : ts ≠ [] := by
  cases h <;> simp

/-- A word at the beginning of an expression is all of it, or an operator comes
next. -/
theorem Expr.Spelling.after_word {e : Expr} {name : List Char} {ts us : List Token}
    (h : e.Spelling ts) (hWord : ts = .word name :: us) :
    us = [] ∨ ∃ op vs, us = .operator op :: vs := by
  induction h generalizing us with
  | literal h => exact .inl (List.cons.inj hWord).2.symm
  | var name => exact .inl (List.cons.inj hWord).2.symm
  | parens h ih => exact absurd (List.cons.inj hWord).1 Token.noConfusion
  | @operation op left right ts vs hLeft hRight ihLeft ihRight =>
      cases ts with
      | nil => exact absurd rfl hLeft.ne_nil
      | cons t ts =>
          obtain ⟨rfl, rfl⟩ := List.cons.inj hWord
          rcases ihLeft rfl with rfl | ⟨other, tail, rfl⟩
          · exact .inr ⟨op, vs, rfl⟩
          · exact .inr ⟨other, tail ++ .operator op :: vs, rfl⟩

/-- A digit run for every number. -/
theorem exists_digits (n : Nat) : ∃ run, IsDigits run ∧ Number.value run = n := by
  induction n using Nat.strongRecOn with
  | _ n ih =>
      have hLast : ∀ digit, digit < 10 →
          (Nat.digitChar digit).isDigit = true ∧ Number.value [Nat.digitChar digit] = digit := by
        decide
      by_cases hSmall : n < 10
      · refine ⟨[Nat.digitChar n], ⟨by simp, ?_⟩, (hLast n hSmall).2⟩
        intro c hc
        rw [List.mem_singleton.mp hc]
        exact (hLast n hSmall).1
      · obtain ⟨run, hRun, hValue⟩ := ih (n / 10) (by omega)
        have hDigit := hLast (n % 10) (Nat.mod_lt _ (by decide))
        refine ⟨run ++ [Nat.digitChar (n % 10)], ⟨by simp, ?_⟩, ?_⟩
        · intro c hc
          rcases List.mem_append.mp hc with hc | hc
          · exact hRun.2 c hc
          · rw [List.mem_singleton.mp hc]
            exact hDigit.1
        · rw [Number.value_append, hValue, hDigit.2]
          simp only [List.length_singleton]
          omega

theorem Literal.exists_spelling {value : Literal} (h : value.WellFormed) :
    ∃ t, value.Spelling t := by
  cases value with
  | int n =>
      obtain ⟨run, hRun, rfl⟩ := exists_digits n
      exact ⟨_, .int hRun⟩
  | float value =>
      obtain ⟨whole, fraction, hWhole, hFraction, rfl⟩ := h
      exact ⟨_, .float hWhole hFraction⟩
  | string value => exact ⟨_, .string value⟩
  | bool value => exact ⟨_, .bool value⟩

/-- Every tree that can be written is written by some tokens. -/
theorem Expr.exists_spelling {e : Expr} (h : e.WellFormed) : ∃ ts, e.Spelling ts := by
  induction e with
  | literal value =>
      obtain ⟨t, ht⟩ := Literal.exists_spelling h
      exact ⟨_, .literal ht⟩
  | var name => exact ⟨_, .var name⟩
  | parens inner ih =>
      obtain ⟨ts, hts⟩ := ih h
      exact ⟨_, .parens hts⟩
  | operation op left right ihLeft ihRight =>
      obtain ⟨ts, hts⟩ := ihLeft h.1
      obtain ⟨us, hus⟩ := ihRight h.2.1
      exact ⟨_, .operation hts hus⟩

end Scriptlet
