import Scriptlet.Proofs.Grammar.Declaration
import Scriptlet.Proofs.Parsing.Link

namespace Scriptlet.Grammar

open Scriptlet.Parser

variable {α : Type} {p : Parser α} {spells : α → Token → Prop} {name : String}

/-- A parser of single tokens. It takes any token that spells a value, with the
blanks after it. Where there is no such token it fails on the spot, under one
name, and without commitment. -/
structure Recognises (p : Parser α) (spells : α → Token → Prop) (name : String) : Prop where
  hit : ∀ {d : Nat} {c : Cursor} {value : α} {t : Token} {rest : List Char}, spells value t →
    t.Read c.rest rest → p.step d c = .success value (c.before rest)
  miss : ∀ {d : Nat} {c : Cursor}, (∀ value t rest, spells value t → ¬ t.Read c.rest rest) →
    p.step d c = .failure (.here c name)

namespace Recognises

/-- There is nothing else that a parser of tokens does. -/
theorem hit_or_miss (h : Recognises p spells name) (d : Nat) (c : Cursor) :
    (∃ value t rest, spells value t ∧ t.Read c.rest rest ∧
      p.step d c = .success value (c.before rest)) ∨
    (∀ value t rest, spells value t → ¬ t.Read c.rest rest) ∧
      p.step d c = .failure (.here c name) := by
  by_cases hToken : ∃ value t rest, spells value t ∧ t.Read c.rest rest
  · obtain ⟨value, t, rest, hSpells, hRead⟩ := hToken
    exact .inl ⟨value, t, rest, hSpells, hRead, h.hit hSpells hRead⟩
  · have hNone : ∀ value t rest, spells value t → ¬ t.Read c.rest rest :=
      fun value t rest hSpells hRead => hToken ⟨value, t, rest, hSpells, hRead⟩
    exact .inr ⟨hNone, h.miss hNone⟩

/-- It succeeds with what the token at hand spells. -/
theorem success_iff (h : Recognises p spells name) {d : Nat} {c next : Cursor} {value : α} :
    p.step d c = .success value next ↔
      ∃ t rest, spells value t ∧ t.Read c.rest rest ∧ next = c.before rest := by
  constructor
  · intro hSuccess
    rcases h.hit_or_miss d c with ⟨found, t, rest, hSpells, hRead, hStep⟩ | ⟨_, hStep⟩
    · rw [hStep] at hSuccess
      cases hSuccess
      exact ⟨t, rest, hSpells, hRead, rfl⟩
    · rw [hStep] at hSuccess
      cases hSuccess
  · rintro ⟨t, rest, hSpells, hRead, rfl⟩
    exact h.hit hSpells hRead

/-- It fails where it does not succeed. -/
theorem failure_of_no_success (h : Recognises p spells name) {d : Nat} {c : Cursor}
    (hNone : ∀ value next, p.step d c ≠ .success value next) :
    p.step d c = .failure (.here c name) := by
  rcases h.hit_or_miss d c with ⟨value, t, rest, _, _, hStep⟩ | ⟨_, hStep⟩
  · exact absurd hStep (hNone value _)
  · exact hStep

theorem neverCommits (h : Recognises p spells name) (d : Nat) : NeverCommits d p := by
  intro c reason hFailure
  rw [h.failure_of_no_success fun value next hStep => by rw [hStep] at hFailure; cases hFailure]
    at hFailure
  cases hFailure
  rfl

theorem moves (h : Recognises p spells name) (d : Nat) : Moves d p := by
  intro c value next hSuccess
  obtain ⟨t, rest, _, hRead, rfl⟩ := h.success_iff.mp hSuccess
  rw [Cursor.rest_before hRead.suffix]
  exact hRead.length_lt

end Recognises

/-! The parsers of tokens. -/

theorem recognises_symbol {x : Char} (hMark : x ∈ marks) :
    Recognises (symbol x) (fun value t => value = x ∧ t = .mark x)
      (Text.quoted (String.singleton x)) where
  hit := by
    rintro d c _ _ rest ⟨rfl, rfl⟩ hRead
    exact symbol_of_read hRead
  miss := by
    intro d c hNone
    apply symbol_of_miss
    intro hHead
    obtain ⟨rest, hRead⟩ := read_mark hMark hHead
    exact hNone x (.mark x) rest ⟨rfl, rfl⟩ hRead

theorem recognises_keyword {word : String} (hName : IsName word.toList) :
    Recognises (keyword word) (fun value t => value = word ∧ t = .word word.toList)
      (Text.quoted word) where
  hit := by
    rintro d c _ _ rest ⟨rfl, rfl⟩ hRead
    exact keyword_of_read hRead
  miss := by
    intro d c hNone
    apply keyword_of_miss hName
    intro rest hRead
    exact hNone word _ rest ⟨rfl, rfl⟩ hRead

theorem recognises_identifier :
    Recognises identifier (fun value t => t = .word value.toList) "identifier" where
  hit := by
    rintro d c value _ rest rfl hRead
    rw [identifier_of_read hRead, String.ofList_toList]
  miss := by
    intro d c hNone
    apply identifier_of_miss
    by_cases hStart : ∀ x ∈ c.rest.head?, isNameStart x = false
    · exact hStart
    · obtain ⟨value, rest, hRead⟩ := exists_name hStart
      exact absurd hRead (hNone value _ rest rfl)

theorem recognises_typeChoice {first : TypeName} {others : List TypeName}
    (hAll : ∀ type, type ∈ first :: others) :
    Recognises (typeChoice first others) (fun type t => t = .word type.word.toList) "type name" where
  hit := by
    rintro d c type _ rest rfl hRead
    exact typeChoice_of_read (hAll type) hRead
  miss := by
    intro d c hNone
    apply typeChoice_of_miss
    intro type _ rest hRead
    exact hNone type _ rest rfl hRead

theorem recognises_typeName :
    Recognises typeName (fun type t => t = .word type.word.toList) "type name" :=
  recognises_typeChoice mem_typeOrder

theorem recognises_boolean :
    Recognises boolean (fun e t => ∃ value, e = .literal (.bool value) ∧ t = .word (boolWord value))
      "boolean" where
  hit := by
    rintro d c _ _ rest ⟨value, rfl, rfl⟩ hRead
    exact boolean_of_read hRead
  miss := by
    intro d c hNone
    apply boolean_of_miss
    intro value rest hRead
    exact hNone _ _ rest ⟨value, rfl, rfl⟩ hRead

theorem recognises_operator : Recognises operator (fun op t => t = .operator op) "operator" where
  hit := by
    rintro d c op _ rest rfl hRead
    exact operator_of_read hRead
  miss := by
    intro d c hNone
    apply operator_of_miss
    by_cases hEnd : NoOperator c.rest
    · exact hEnd
    · obtain ⟨op, rest, hRead⟩ := read_operator hEnd
      exact absurd hRead (hNone op _ rest rfl)

/-- The tokens of numbers. -/
inductive NumberSpelling : Expr → Token → Prop where
  | digits (run : List Char) : NumberSpelling (.literal (.int (Number.value run))) (.digits run)
  | pointed (whole fraction : List Char) :
      NumberSpelling (.literal (.float (pointed whole fraction))) (.pointed whole fraction)

theorem recognises_number : Recognises number NumberSpelling "number" where
  hit := by
    intro d c value t rest hSpells hRead
    cases hSpells with
    | digits run => exact number_of_digits hRead
    | pointed whole fraction => exact number_of_pointed hRead
  miss := by
    intro d c hNone
    apply number_of_miss
    intro x hx
    obtain ⟨text, hText⟩ := List.head?_eq_some_iff.mp hx
    cases hDigit : x.isDigit with
    | false => rfl
    | true =>
        rcases read_number hDigit text with ⟨run, rest, hRead⟩ | ⟨whole, fraction, rest, hRead⟩
        · exact absurd (hText ▸ hRead) (hNone _ _ rest (.digits run))
        · exact absurd (hText ▸ hRead) (hNone _ _ rest (.pointed whole fraction))

end Scriptlet.Grammar
