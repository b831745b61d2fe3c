import Scriptlet.Proofs.Grammar.Literal

/-! Whole numbers of any length: what a run of digits is worth, and how much of it
the routine for short runs is given at a time. -/

namespace Scriptlet

open Grammar Number Scriptlet.Parser

namespace Grammar

variable {limit pos : Nat} {text : List Char}

/-- A digit at a place begins a run of digits, which blanks may follow. -/
theorem integer_of_digit {x : Char} (hNext : text[pos]? = some x) (hDigit : x.isDigit = true) :
    let run := (text.drop pos).takeWhile Char.isDigit
    let blanks := (text.drop (pos + run.length)).takeWhile isBlank
    integer.runWithin limit text pos =
      .success (.int (decimalValue run)) (Cursor.place text (pos + run.length + blanks.length)) := by
  obtain ⟨run, tail, hText, hRun, hTail⟩ := exists_run Char.isDigit (text.drop pos)
  obtain ⟨blanks, rest, rfl, hBlanks, hRest⟩ := exists_run isBlank tail
  have hSome : run ≠ [] := by
    rintro rfl
    have hHead : x ∈ (blanks ++ rest).head? := by
      rw [← List.nil_append (blanks ++ rest), ← hText, List.head?_drop, hNext]
      rfl
    exact absurd hDigit (by simp [hTail x hHead])
  simp only [hText, takeWhile_run hRun hTail]
  rw [runWithin, integer_of_run hText ⟨hSome, hRun⟩ hBlanks hRest hTail,
    place_behind_blanks hSome hText hBlanks hRest]

theorem integer_of_no_digit (h : ∀ x, text[pos]? = some x → x.isDigit = false) :
    integer.runWithin limit text pos = .failure ⟨pos, .single "digit", false⟩ := by
  refine integer_of_miss fun x hx => h x ?_
  rwa [← List.head?_drop]

theorem integer_success_iff {literal : Literal} {next : Cursor} :
    let run := (text.drop pos).takeWhile Char.isDigit
    let blanks := (text.drop (pos + run.length)).takeWhile isBlank
    integer.runWithin limit text pos = .success literal next ↔
      (∃ x, text[pos]? = some x ∧ x.isDigit = true) ∧
        literal = .int (decimalValue run) ∧
        next = Cursor.place text (pos + run.length + blanks.length) := by
  intro run blanks
  by_cases hDigit : ∃ x, text[pos]? = some x ∧ x.isDigit = true
  · obtain ⟨x, hNext, hDigit⟩ := hDigit
    rw [integer_of_digit hNext hDigit, Outcome.success.injEq, eq_comm, @eq_comm _ _ next]
    exact (and_iff_right ⟨x, hNext, hDigit⟩).symm
  · have hNone : ∀ x, text[pos]? = some x → x.isDigit = false := by
      intro x hNext
      exact Bool.eq_false_iff.mpr fun hTrue => hDigit ⟨x, hNext, hTrue⟩
    rw [integer_of_no_digit hNone]
    exact iff_of_false (fun hSuccess => nomatch hSuccess) fun h => hDigit h.1

end Grammar

/-- A run of digits of any length is worth what it says in base ten, and a routine for
short runs is enough to find that: it is given as many digits as there are, or a
thousand, but never more. A whole number is read exactly where a digit stands. It is
the longest run of digits there, and the blanks behind the run are passed over. -/
theorem digit_runs_exact :
    (∀ digits : List Char, IsDigits digits →
      decimalValue digits = Nat.ofDigits 10 (digits.reverse.map digitValue) ∧
      ∀ limit, decimalValueWithin? limit digits =
        if min digits.length 1000 ≤ limit then some (decimalValue digits) else none) ∧
    ∀ (limit : Nat) (text : List Char) (pos : Nat),
      let run := (text.drop pos).takeWhile Char.isDigit
      let blanks := (text.drop (pos + run.length)).takeWhile isBlank
      (∀ literal next, integer.runWithin limit text pos = .success literal next ↔
        (∃ x, text[pos]? = some x ∧ x.isDigit = true) ∧
          literal = .int (Nat.ofDigits 10 (run.reverse.map digitValue)) ∧
          next = Cursor.place text (pos + run.length + blanks.length)) ∧
      ((∀ x, text[pos]? = some x → x.isDigit = false) →
        integer.runWithin limit text pos = .failure ⟨pos, .single "digit", false⟩) := by
  have hValue (digits : List Char) :
      decimalValue digits = Nat.ofDigits 10 (digits.reverse.map digitValue) := by
    rw [decimalValue_eq_value, value_eq_ofDigits]
  refine ⟨fun digits _ => ⟨hValue digits, fun limit => decimalValueWithin?_eq_ite limit digits⟩, ?_⟩
  intro limit text pos run blanks
  refine ⟨fun literal next => ?_, integer_of_no_digit⟩
  rw [← hValue run]
  exact integer_success_iff

/-- One digit more than the routine is given at a time. -/
theorem digit_runs_exact_nines :
    let digits := List.replicate 1001 '9'
    IsDigits digits ∧ decimalValue digits + 1 = 10 ^ 1001 ∧
      decimalValueWithin? 1000 digits = some (decimalValue digits) ∧
      decimalValueWithin? 999 digits = none ∧
      integer.runWithin 1 "a007 .".toList 1 = .success (.int 7) (Cursor.place "a007 .".toList 5) := by
  intro digits
  have hDigits : IsDigits digits := by decide +kernel
  obtain ⟨hValue, hRoutine⟩ := digit_runs_exact.1 digits hDigits
  have hLength : digits.length = 1001 := List.length_replicate
  refine ⟨hDigits, ?_, ?_, ?_, ?_⟩
  · rw [hValue]
    decide +kernel
  · rw [hRoutine, hLength]
    rfl
  · rw [hRoutine, hLength]
    rfl
  · exact ((digit_runs_exact.2 1 _ 1).1 _ _).mpr ⟨⟨'0', rfl, rfl⟩, rfl, rfl⟩

end Scriptlet
