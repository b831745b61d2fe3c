import Scriptlet.Proofs.Backtracking.Grammar

namespace Scriptlet

namespace Parser

variable {α β : Type} {d : Nat} {c : Cursor} {p : Parser α} {q : Parser β}

/-! Parsers whose failures are never committed. -/

/-- A parser that always matches, or halts. -/
def NeverFails (d : Nat) (p : Parser α) : Prop := ∀ c reason, p.step d c ≠ .failure reason

theorem neverFails_pure (value : α) : NeverFails d (Parser.pure value) := by
  intro c reason h
  cases h

theorem Takes.neverFails_many {p : Parser Char} {accepts : Char → Bool} (hp : Takes p accepts) :
    NeverFails d (Parser.many p) := by
  intro c reason h
  rw [hp.many] at h
  cases h

theorem NeverFails.map (hp : NeverFails d p) (f : α → β) : NeverFails d (f <$> p) := by
  intro c reason h
  exact hp c reason (Outcome.failure_of_map h)

theorem Takes.neverCommits {p : Parser Char} {accepts : Char → Bool} (hp : Takes p accepts) :
    NeverCommits d p := by
  intro c reason h
  by_cases hHead : ∀ x ∈ c.rest.head?, accepts x = false
  · obtain ⟨other, hMiss, hFree⟩ := hp.miss (d := d) hHead
    rw [hMiss] at h
    cases h
    exact hFree
  · simp only [Classical.not_forall, Bool.not_eq_false] at hHead
    obtain ⟨x, hx, hAccepts⟩ := hHead
    obtain ⟨text, hText⟩ := List.head?_eq_some_iff.mp hx
    rw [hp.hit hText hAccepts] at h
    cases h

theorem neverCommits_string (word : String) : NeverCommits d (string word) := by
  intro c reason h
  simp only [string] at h
  split at h
  · cases h
  · cases h
    rfl

theorem neverCommits_attempt : NeverCommits d (attempt p) := by
  intro c reason h
  simp only [attempt] at h
  cases hOutcome : p.step d c with
  | failure other =>
      rw [hOutcome] at h
      cases h
      rfl
  | success | halted =>
      rw [hOutcome] at h
      cases h

theorem NeverFails.neverCommits (hp : NeverFails d p) : NeverCommits d p := by
  intro c reason h
  exact absurd h (hp c reason)

section Sequence

variable (hp : NeverCommits d p) (hq : NeverFails d q)

include hp hq

theorem NeverCommits.pair : NeverCommits d (Parser.pair p q) := by
  intro c reason h
  rw [pair_step] at h
  cases hFirst : p.step d c with
  | failure other =>
      rw [hFirst] at h
      cases h
      exact hp c reason hFirst
  | halted cause =>
      rw [hFirst] at h
      cases h
  | success value reached =>
      simp only [hFirst] at h
      cases hSecond : q.step d reached with
      | failure other => exact absurd hSecond (hq reached other)
      | success | halted =>
          rw [hSecond] at h
          cases h

theorem NeverCommits.keepRight : NeverCommits d (p *> q) := by
  intro c reason h
  rw [keepRight_eq_pair] at h
  exact (hp.pair hq).map Prod.snd c reason h

theorem NeverCommits.keepLeft : NeverCommits d (p <* q) := by
  intro c reason h
  rw [keepLeft_eq_pair] at h
  exact (hp.pair hq).map Prod.fst c reason h

end Sequence

/-! An attempt changes nothing about such parsers. -/

theorem NeverCommits.attempt_step (hp : NeverCommits d p) : (attempt p).step d c = p.step d c := by
  simp only [attempt]
  cases hOutcome : p.step d c with
  | success | halted => rfl
  | failure reason =>
      have hFree := hp c reason hOutcome
      simp only [← hFree]

theorem tryEach_attempts {parsers : List (Parser α)} (h : ∀ p ∈ parsers, NeverCommits d p)
    (failed : Failure) :
    tryEach d c failed (parsers.map attempt) = tryEach d c failed parsers := by
  induction parsers generalizing failed with
  | nil => rfl
  | cons p parsers ih =>
      have hLater := ih fun q hq => h q (List.mem_cons_of_mem p hq)
      simp only [List.map_cons, tryEach, (h p List.mem_cons_self).attempt_step, hLater]

end Parser

open Scriptlet.Parser

namespace Alternation

/-- Where no alternative ever commits, backtracking is no other choice. -/
theorem choose_eq {α : Type} {first : Parser α} {others : List (Parser α)}
    (hFirst : ∀ d, NeverCommits d first) (hOthers : ∀ p ∈ others, ∀ d, NeverCommits d p) :
    backtracking.choose first others = choice first others := by
  simp only [backtracking, choice]
  congr 1
  funext d c
  have hLater : ∀ failed, tryEach d c failed (others.map attempt) = tryEach d c failed others :=
    tryEach_attempts fun p hp => hOthers p hp d
  simp only [(hFirst d).attempt_step, hLater]

theorem choose_two_eq {α : Type} {first second : Parser α} (hFirst : ∀ d, NeverCommits d first)
    (hSecond : ∀ d, NeverCommits d second) :
    backtracking.choose first [second] = choice first [second] := by
  apply choose_eq hFirst
  intro p hp
  rw [List.mem_singleton.mp hp]
  exact hSecond

/-! The parsers of tokens are the same with backtracking. -/

theorem nameStart_eq : backtracking.nameStart = Grammar.nameStart :=
  choose_two_eq (fun _ => (takes_satisfy _ _).neverCommits) fun _ => (takes_satisfy _ _).neverCommits

theorem namePart_eq : backtracking.namePart = Grammar.namePart := by
  rw [namePart, nameStart_eq]
  exact choose_two_eq (fun _ => Grammar.takes_nameStart.neverCommits)
    fun _ => Grammar.takes_digit.neverCommits

theorem keyword_eq : backtracking.keyword = Grammar.keyword := by
  funext word
  rw [keyword, namePart_eq]
  rfl

theorem identifier_eq : backtracking.identifier = Grammar.identifier := by
  rw [identifier, nameStart_eq, namePart_eq]
  rfl

theorem number_eq : backtracking.number = Grammar.number := by
  have hInteger : ∀ d, NeverCommits d Grammar.integer := by
    intro d
    have hBlanks : NeverFails d Grammar.whitespace := Grammar.takes_blank.neverFails_many.map _
    have hDigits := Grammar.takes_digit.neverCommits.pair
      (Grammar.takes_digit.neverFails_many (d := d))
    exact ((hDigits.map _).keepLeft hBlanks).map _
  rw [number, choose_two_eq (fun _ => neverCommits_attempt) hInteger]
  rfl

/-- A keyword that stands for a value. -/
theorem neverCommits_word {α : Type} {word : String} (hName : Grammar.IsName word.toList) (value : α)
    (d : Nat) : NeverCommits d (Grammar.keyword word *> Parser.pure value) :=
  ((Grammar.recognises_keyword hName).neverCommits d).keepRight (neverFails_pure value)

theorem boolean_eq : backtracking.boolean = Grammar.boolean := by
  rw [boolean, keyword_eq, choose_two_eq (neverCommits_word Grammar.isName_true true)
    (neverCommits_word Grammar.isName_false false)]
  rfl

theorem typeName_eq : backtracking.typeName = Grammar.typeName := by
  have hWord : backtracking.typeWord = Grammar.typeWord := by
    funext type
    rw [typeWord, keyword_eq]
    rfl
  have hFree : ∀ type d, NeverCommits d (Grammar.typeWord type) := fun type d =>
    neverCommits_word (Grammar.isName_typeWord type) type d
  rw [typeName, hWord, choose_eq (hFree _) fun p hp => ?_]
  · rfl
  · obtain ⟨type, _, rfl⟩ := List.mem_map.mp hp
    exact hFree type

theorem operator_eq : backtracking.operator = Grammar.operator := by
  have hFree : ∀ op d, NeverCommits d (Grammar.operatorSymbol op) := fun op d =>
    (neverCommits_string op.symbol).keepRight (neverFails_pure op)
  rw [operator, choose_eq (hFree _) fun p hp => ?_]
  · rfl
  · obtain ⟨op, _, rfl⟩ := List.mem_map.mp hp
    exact hFree op

theorem statementSeparator_eq : backtracking.statementSeparator = Grammar.statementSeparator := by
  have hSemicolon : ∀ d, NeverCommits d (Grammar.symbol ';') :=
    (Grammar.recognises_symbol (by decide)).neverCommits
  exact choose_two_eq (fun d => (hSemicolon d).map some) fun _ => (neverFails_pure none).neverCommits

end Alternation

end Scriptlet
