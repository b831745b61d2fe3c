import Scriptlet.Proofs.Parsing.Step

namespace Scriptlet.Parser

variable {α β γ : Type}

/-- A parser that gives up on nothing but nesting that is too deep. In
particular none of its repetitions repeats something empty. -/
def Steady (p : Parser α) : Prop :=
  ∀ (d : Nat) (c : Cursor) (cause : Halt), p.step d c = .halted cause → cause = .tooDeep

/-! Parsers that never halt. -/

theorem steady_satisfy (accepts : Char → Bool) (label : String) : Steady (satisfy accepts label) := by
  intro d c cause h
  cases hNext : c.next? with
  | none => simp [satisfy, hNext] at h
  | some found =>
      simp only [satisfy, hNext] at h
      split at h <;> cases h

theorem steady_char (x : Char) : Steady (char x) := steady_satisfy _ _

theorem steady_string (word : String) : Steady (string word) := by
  intro d c cause h
  simp only [string] at h
  split at h <;> cases h

theorem steady_pure (value : α) : Steady (Parser.pure value) := by
  intro d c cause h
  cases h

/-- A repetition of single characters takes a character in every round. -/
theorem Takes.steady_many {p : Parser Char} {accepts : Char → Bool} (hp : Takes p accepts) :
    Steady (Parser.many p) := by
  intro d c cause h
  rw [hp.many] at h
  cases h

/-! Where the halt of a combination comes from. -/

section Origins

variable {p : Parser α} {q : Parser β} {d : Nat} {c : Cursor} {cause : Halt}

theorem halted_of_label {name : String} (h : (Parser.label name p).step d c = .halted cause) :
    p.step d c = .halted cause := by
  simp only [Parser.label] at h
  cases hOutcome : p.step d c with
  | halted other => rwa [hOutcome] at h
  | success value next =>
      rw [hOutcome] at h
      cases h
  | failure reason =>
      simp only [hOutcome] at h
      split at h <;> cases h

theorem halted_of_attempt (h : (Parser.attempt p).step d c = .halted cause) :
    p.step d c = .halted cause := by
  simp only [Parser.attempt] at h
  cases hOutcome : p.step d c with
  | halted other => rwa [hOutcome] at h
  | success value next | failure reason =>
      rw [hOutcome] at h
      cases h

theorem halted_of_notFollowedBy {label : String}
    (h : (Parser.notFollowedBy p label).step d c = .halted cause) : p.step d c = .halted cause := by
  simp only [Parser.notFollowedBy] at h
  cases hOutcome : p.step d c with
  | halted other =>
      rw [hOutcome] at h
      cases h
      rfl
  | success value next | failure reason =>
      rw [hOutcome] at h
      cases h

theorem halted_of_bind {f : α → Parser β} (h : (Parser.bind p f).step d c = .halted cause) :
    p.step d c = .halted cause ∨ ∃ value reached, (f value).step d reached = .halted cause := by
  simp only [Parser.bind] at h
  cases hFirst : p.step d c with
  | halted other =>
      rw [hFirst] at h
      cases h
      exact .inl rfl
  | failure reason =>
      rw [hFirst] at h
      cases h
  | success value reached =>
      simp only [hFirst] at h
      refine .inr ⟨value, reached, ?_⟩
      cases hSecond : (f value).step d reached with
      | halted other => rwa [hSecond] at h
      | success found next | failure reason =>
          rw [hSecond] at h
          cases h

theorem halted_of_pair (h : (Parser.pair p q).step d c = .halted cause) :
    p.step d c = .halted cause ∨ ∃ reached, q.step d reached = .halted cause := by
  rw [pair_eq_bind] at h
  refine (halted_of_bind h).imp_right ?_
  rintro ⟨value, reached, hSecond⟩
  exact ⟨reached, Outcome.halted_of_map hSecond⟩

theorem halted_of_tryEach {parsers : List (Parser α)} {failed : Failure}
    (h : tryEach d c failed parsers = .halted cause) :
    ∃ q ∈ parsers, q.step d c = .halted cause := by
  induction parsers generalizing failed with
  | nil => cases h
  | cons p parsers ih =>
      simp only [tryEach] at h
      cases hOutcome : p.step d c with
      | halted other =>
          rw [hOutcome] at h
          cases h
          exact ⟨p, List.mem_cons_self, hOutcome⟩
      | success value next =>
          rw [hOutcome] at h
          cases h
      | failure reason =>
          simp only [hOutcome] at h
          split at h
          · cases h
          · obtain ⟨q, hq, hHalted⟩ := ih h
            exact ⟨q, List.mem_cons_of_mem p hq, hHalted⟩

theorem halted_of_choice {others : List (Parser α)}
    (h : (Parser.choice p others).step d c = .halted cause) :
    ∃ q ∈ p :: others, q.step d c = .halted cause := by
  simp only [Parser.choice] at h
  cases hOutcome : p.step d c with
  | halted other =>
      rw [hOutcome] at h
      cases h
      exact ⟨p, List.mem_cons_self, hOutcome⟩
  | success value next =>
      rw [hOutcome] at h
      cases h
  | failure reason =>
      simp only [hOutcome] at h
      split at h
      · cases h
      · obtain ⟨q, hq, hHalted⟩ := halted_of_tryEach h
        exact ⟨q, List.mem_cons_of_mem p hq, hHalted⟩

/-! Loops halt where one of their parts does, or for a reason of their own. -/

theorem halted_of_runAll {parsers : List (Parser α)} {start : Cursor} {found : List α}
    (h : runAll d start parsers c found = .halted cause) :
    ∃ q ∈ parsers, ∃ reached, q.step d reached = .halted cause := by
  fun_induction runAll d start parsers c found with
  | case1 | case3 => cases h
  | case2 p rest c found value next hStep ih =>
      obtain ⟨q, hq, hHalted⟩ := ih h
      exact ⟨q, List.mem_cons_of_mem p hq, hHalted⟩
  | case4 p rest c found other hStep =>
      cases h
      exact ⟨p, List.mem_cons_self, c, hStep⟩

theorem halted_of_manyRounds {rounds : List Char} {found : List α}
    (h : manyRounds p d rounds c found = .halted cause) :
    (∃ reached, p.step d reached = .halted cause) ∨ cause = .emptyRepetition p.display := by
  fun_induction manyRounds p d rounds c found with
  | case1 | case2 =>
      cases h
      exact .inr rfl
  | case3 c found value next hStep hMoved round rounds ih => exact ih h
  | case4 | case5 => cases h
  | case6 rounds c found other hStep =>
      cases h
      exact .inl ⟨c, hStep⟩

theorem halted_of_chainRounds {operator : Parser (α → α → α)} {start : Cursor} {rounds : List Char}
    {left : α} (h : chainRounds p operator d start rounds c left = .halted cause) :
    (∃ reached, p.step d reached = .halted cause) ∨
      (∃ reached, operator.step d reached = .halted cause) ∨ cause = .endless := by
  fun_induction chainRounds p operator d start rounds c left with
  | case1 =>
      cases h
      exact .inr (.inr rfl)
  | case2 c left combine reached hFirst right next hSecond round rounds ih => exact ih h
  | case3 | case5 | case6 => cases h
  | case4 rounds c left combine reached hFirst other hSecond =>
      cases h
      exact .inl ⟨reached, hSecond⟩
  | case7 rounds c left other hFirst =>
      cases h
      exact .inr (.inl ⟨c, hFirst⟩)

theorem halted_of_chainLeft {operator : Parser (α → α → α)}
    (h : (chainLeft p operator).step d c = .halted cause) :
    (∃ reached, p.step d reached = .halted cause) ∨
      (∃ reached, operator.step d reached = .halted cause) ∨ cause = .endless := by
  simp only [chainLeft] at h
  cases hFirst : p.step d c with
  | halted other =>
      rw [hFirst] at h
      cases h
      exact .inl ⟨c, hFirst⟩
  | failure reason =>
      rw [hFirst] at h
      cases h
  | success value next =>
      simp only [hFirst] at h
      exact halted_of_chainRounds h

end Origins

/-! Combinations of parsers. -/

section Combined

variable {p : Parser α} {q : Parser β} {r : Parser γ} (hp : Steady p)

include hp

/-- A parser that passes the halts of another one on and adds none. -/
theorem Steady.pass {q : Parser β}
    (h : ∀ d c cause, q.step d c = .halted cause → p.step d c = .halted cause) : Steady q := by
  intro d c cause hHalted
  exact hp d c cause (h d c cause hHalted)

theorem Steady.map (f : α → β) : Steady (f <$> p) :=
  hp.pass fun _ _ _ h => Outcome.halted_of_map h

theorem Steady.label (name : String) : Steady (Parser.label name p) :=
  hp.pass fun _ _ _ h => halted_of_label h

theorem Steady.attempt : Steady (Parser.attempt p) := hp.pass fun _ _ _ h => halted_of_attempt h

theorem Steady.notFollowedBy (label : String) : Steady (Parser.notFollowedBy p label) :=
  hp.pass fun _ _ _ h => halted_of_notFollowedBy h

theorem Steady.pair (hq : Steady q) : Steady (Parser.pair p q) := by
  intro d c cause h
  rcases halted_of_pair h with hFirst | ⟨reached, hSecond⟩
  · exact hp d c cause hFirst
  · exact hq d reached cause hSecond

/-! Other sequences differ from a pair in the value only. -/

theorem Steady.keepRight (hq : Steady q) : Steady (p *> q) := by
  apply (hp.pair hq).pass
  intro d c cause h
  rw [keepRight_eq_pair] at h
  exact Outcome.halted_of_map h

theorem Steady.keepLeft (hq : Steady q) : Steady (p <* q) := by
  apply (hp.pair hq).pass
  intro d c cause h
  rw [keepLeft_eq_pair] at h
  exact Outcome.halted_of_map h

theorem Steady.triple (hq : Steady q) (hr : Steady r) : Steady (Parser.triple p q r) := by
  apply ((hp.pair hq).pair hr).pass
  intro d c cause h
  rw [triple_eq_pair] at h
  exact Outcome.halted_of_map h

theorem Steady.between (hq : Steady q) (hr : Steady r) : Steady (Parser.between p q r) := by
  apply ((hp.pair hr).pair hq).pass
  intro d c cause h
  rw [between_eq_pair] at h
  exact Outcome.halted_of_map h

end Combined

theorem Takes.steady {p : Parser Char} {accepts : Char → Bool} (hp : Takes p accepts) : Steady p := by
  intro d c cause h
  by_cases hHead : ∀ x ∈ c.rest.head?, accepts x = false
  · obtain ⟨reason, hMiss, _⟩ := hp.miss (d := d) hHead
    rw [hMiss] at h
    cases h
  · simp only [Classical.not_forall, Bool.not_eq_false] at hHead
    obtain ⟨x, hx, hAccepts⟩ := hHead
    obtain ⟨text, hText⟩ := List.head?_eq_some_iff.mp hx
    rw [hp.hit hText hAccepts] at h
    cases h

theorem Takes.steady_many1 {p : Parser Char} {accepts : Char → Bool} (hp : Takes p accepts) :
    Steady (many1 p) :=
  (hp.steady.pair hp.steady_many).map _

theorem steady_choice {p : Parser α} {others : List (Parser α)} (hp : Steady p)
    (hOthers : ∀ q ∈ others, Steady q) : Steady (choice p others) := by
  intro d c cause h
  obtain ⟨q, hq, hHalted⟩ := halted_of_choice h
  exact List.forall_mem_cons.mpr ⟨hp, hOthers⟩ q hq d c cause hHalted

theorem Steady.orElse {p q : Parser α} (hp : Steady p) (hq : Steady q) : Steady (p <|> q) :=
  steady_choice hp fun _ hr => List.mem_singleton.mp hr ▸ hq

theorem Steady.optional {p : Parser α} (hp : Steady p) : Steady (Parser.optional p) :=
  steady_choice (hp.map some) fun _ hr => List.mem_singleton.mp hr ▸ steady_pure none

end Scriptlet.Parser
