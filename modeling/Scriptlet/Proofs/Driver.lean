import Scriptlet.Proofs.Entry
import Scriptlet.Proofs.Grammar.Alignment

namespace Scriptlet

open Grammar Scriptlet.Parser

namespace Source

/-- Two sources come to results that are related, or to corresponding errors:
from corresponding failures, or from nesting that is too deep in productions
that start at corresponding places. -/
inductive Linked (L : Link) (source source' : Source) {α : Type} (related : α → α → Prop) :
    Except Fault α → Except Fault α → Prop where
  | ok {value value' : α} (h : related value value') :
      Linked L source source' related (.ok value) (.ok value')
  | rejected {reason reason' : Failure} (h : L.failures reason reason') :
      Linked L source source' related
        (.error (.rejected
          (.place reason.offset reason.expected.toList source.text source.filename none)))
        (.error (.rejected
          (.place reason'.offset reason'.expected.toList source'.text source'.filename none)))
  | tooDeep {c c' : Cursor} (h : L.cursors c c') :
      Linked L source source' related
        (.error (.rejected (.place c.offset [] source.text source.filename
          (some "input is nested too deeply to parse"))))
        (.error (.rejected (.place c'.offset [] source'.text source'.filename
          (some "input is nested too deeply to parse"))))
  | halted (cause : Halt) :
      Linked L source source' related (.error (.halted cause)) (.error (.halted cause))

variable {L : Link} {source source' : Source} {limit : Nat} {α β : Type}

theorem Linked.imp {related other : α → α → Prop} {result result' : Except Fault α}
    (h : Linked L source source' related result result')
    (hImp : ∀ value value', related value value' → other value value') :
    Linked L source source' other result result' := by
  cases h with
  | ok h => exact .ok (hImp _ _ h)
  | rejected h => exact .rejected h
  | tooDeep h => exact .tooDeep h
  | halted cause => exact .halted cause

theorem Linked.map {related : α → α → Prop} {other : β → β → Prop} {f f' : α → β}
    {result result' : Except Fault α} (h : Linked L source source' related result result')
    (hMap : ∀ value value', related value value' → other (f value) (f' value')) :
    Linked L source source' other (result.map f) (result'.map f') := by
  cases h with
  | ok h => exact .ok (hMap _ _ h)
  | rejected h => exact .rejected h
  | tooDeep h => exact .tooDeep h
  | halted cause => exact .halted cause

/-- The same value at corresponding places. -/
def SameValue (L : Link) (found found' : α × Cursor) : Prop :=
  found.1 = found'.1 ∧ L.cursors found.2 found'.2

theorem applyWithin_linked (source source' : Source) {p p' : Parser α}
    (hp : Parser.Linked L limit p p') {c c' : Cursor} (h : L.cursors c c') :
    Linked L source source' (SameValue L) (source.applyWithin limit p c)
      (source'.applyWithin limit p' c') := by
  have hStep := hp c c' h
  simp only [applyWithin]
  generalize p.step limit c = outcome, p'.step limit c' = outcome' at hStep
  cases hStep with
  | success value hNext => exact .ok ⟨rfl, hNext⟩
  | failure hReason => exact .rejected hReason
  | halted cause =>
      cases cause with
      | tooDeep => exact .tooDeep h
      | emptyRepetition | undefinedReference | endless => exact .halted _

/-! The loop over the statements, for any parsers of statements and separators. -/

section Loop

variable {statement statement' : Parser Stmt} {separator separator' : Parser (Option Char)}

theorem statementsBy_end {rounds : Nat} {c : Cursor} {found : List Stmt} (h : c.rest = []) :
    statementsBy statement separator limit source (rounds + 1) c found = .ok found.reverse := by
  rw [statementsBy, h]
  rfl

theorem statementsBy_round {rounds : Nat} {c : Cursor} {found : List Stmt} (h : c.rest ≠ []) :
    statementsBy statement separator limit source (rounds + 1) c found =
      match source.applyWithin limit statement c with
      | .error fault => .error fault
      | .ok (.declaration declared, next) =>
        statementsBy statement separator limit source rounds next (.declaration declared :: found)
      | .ok (.expression expr, next) =>
        match source.applyWithin limit separator next with
        | .error fault => .error fault
        | .ok (_, next) =>
          statementsBy statement separator limit source rounds next (.expression expr :: found) := by
  have hLeft : ¬ c.rest.isEmpty = true := by simpa using h
  rw [statementsBy]
  exact if_neg hLeft

theorem applyWithin_ok {p : Parser α} {c next : Cursor} {value : α}
    (h : source.applyWithin limit p c = .ok (value, next)) : p.step limit c = .success value next := by
  rw [applyWithin] at h
  cases hStep : p.step limit c with
  | success found reached =>
      rw [hStep] at h
      cases h
      rfl
  | failure reason =>
      rw [hStep] at h
      cases h
  | halted cause =>
      rw [hStep] at h
      cases cause <;> cases h

/-- Both loops find the same statements from corresponding places on, whatever
each of them has found before. -/
theorem statementsBy_linked (hStatement : Parser.Linked L limit statement statement')
    (hSeparator : Parser.Linked L limit separator separator')
    (hMoves : Moves limit statement) (hMoves' : Moves limit statement')
    (hKeeps : Keeps limit separator) (hKeeps' : Keeps limit separator')
    (hEnd : ∀ c c', L.cursors c c' → (c.rest = [] ↔ c'.rest = []))
    (rounds rounds' : Nat) (c c' : Cursor) (found found' : List Stmt) (h : L.cursors c c')
    (hRounds : c.rest.length < rounds) (hRounds' : c'.rest.length < rounds') :
    Linked L source source'
      (fun all all' => ∃ later, all = found.reverse ++ later ∧ all' = found'.reverse ++ later)
      (statementsBy statement separator limit source rounds c found)
      (statementsBy statement' separator' limit source' rounds' c' found') := by
  induction rounds generalizing rounds' c c' found found' with
  | zero => omega
  | succ rounds ih =>
      obtain ⟨rounds', rfl⟩ : ∃ fewer, rounds' = fewer + 1 := ⟨rounds' - 1, by omega⟩
      by_cases hRest : c.rest = []
      · rw [statementsBy_end hRest, statementsBy_end ((hEnd c c' h).mp hRest)]
        exact .ok ⟨[], by simp, by simp⟩
      · have hRest' : c'.rest ≠ [] := fun hBad => hRest ((hEnd c c' h).mpr hBad)
        -- One more statement on both sides, after which the loops go on alike.
        have hNext : ∀ (s : Stmt) (next next' : Cursor), L.cursors next next' →
            next.rest.length < rounds → next'.rest.length < rounds' →
            Linked L source source'
              (fun all all' => ∃ later, all = found.reverse ++ later ∧ all' = found'.reverse ++ later)
              (statementsBy statement separator limit source rounds next (s :: found))
              (statementsBy statement' separator' limit source' rounds' next' (s :: found')) := by
          intro s next next' hCursors hLength hLength'
          refine (ih rounds' next next' (s :: found) (s :: found') hCursors hLength hLength').imp ?_
          rintro all all' ⟨later, rfl, rfl⟩
          exact ⟨s :: later, by simp, by simp⟩
        have hFirst := applyWithin_linked source source' hStatement h
        rw [statementsBy_round hRest, statementsBy_round hRest']
        generalize hLeft : source.applyWithin limit statement c = result,
          hRight : source'.applyWithin limit statement' c' = result' at hFirst
        cases hFirst with
        | rejected hReason => exact .rejected hReason
        | tooDeep hCursors => exact .tooDeep hCursors
        | halted cause => exact .halted cause
        | @ok value value' hSame =>
            obtain ⟨s, next⟩ := value
            obtain ⟨s', next'⟩ := value'
            obtain ⟨rfl, hCursors⟩ : s = s' ∧ L.cursors next next' := hSame
            have hShorter := hMoves c s next (applyWithin_ok hLeft)
            have hShorter' := hMoves' c' s next' (applyWithin_ok hRight)
            cases s with
            | declaration v =>
                apply hNext
                · exact hCursors
                · omega
                · omega
            | expression e =>
                have hSecond := applyWithin_linked source source' hSeparator hCursors
                simp only
                generalize hLeft : source.applyWithin limit separator next = result,
                  hRight : source'.applyWithin limit separator' next' = result' at hSecond
                cases hSecond with
                | rejected hReason => exact .rejected hReason
                | tooDeep hCursors => exact .tooDeep hCursors
                | halted cause => exact .halted cause
                | @ok value value' hSame =>
                    have hStays := hKeeps next value.1 value.2 (applyWithin_ok hLeft)
                    have hStays' := hKeeps' next' value'.1 value'.2 (applyWithin_ok hRight)
                    apply hNext
                    · exact hSame.2
                    · omega
                    · omega

end Loop

/-! Whole sources. -/

theorem parseWithin_program {c : Cursor} (hFirst : source.firstToken limit = .ok c) :
    source.parseWithin limit .program = (source.statements limit (c.rest.length + 1) c []).map
      fun all => .program ⟨all, source.filename⟩ := by
  rw [parseWithin, program_of_statements hFirst]
  cases source.statements limit (c.rest.length + 1) c [] <;> rfl

theorem wholeWithin_eq {p : Parser α} {c : Cursor} (hFirst : source.firstToken limit = .ok c) :
    source.wholeWithin limit p = (source.applyWithin limit (p <* endOfInput) c).map Prod.fst := by
  simp only [wholeWithin, hFirst, bind, Except.bind, pure, Except.pure]
  cases source.applyWithin limit (p <* endOfInput) c <;> rfl

section Whole

variable {c c' : Cursor} (hFirst : source.firstToken limit = .ok c)
  (hFirst' : source'.firstToken limit = .ok c') (h : L.cursors c c')

include hFirst hFirst' h

theorem whole_linked {p p' : Parser α} (hp : Parser.Linked L limit p p')
    (hEnd : Parser.Linked L limit endOfInput endOfInput) :
    Linked L source source' Eq (source.wholeWithin limit p) (source'.wholeWithin limit p') := by
  rw [wholeWithin_eq hFirst, wholeWithin_eq hFirst']
  exact (applyWithin_linked source source' (hp.keepLeft hEnd) h).map fun _ _ hSame => hSame.1

end Whole

end Source

namespace Grammar

theorem moves_statement (d : Nat) : Moves d statement := by
  intro c value next h
  obtain ⟨rest, rfl, hSuffix, hShorter⟩ := statement_reaches h
  rwa [Cursor.rest_before hSuffix]

theorem keeps_separator (d : Nat) : Keeps d statementSeparator := by
  intro c value next h
  obtain ⟨separator, rest, hSeparator, hSuffix⟩ := separator_reaches d c
  rw [hSeparator] at h
  cases h
  rw [Cursor.rest_before hSuffix]
  exact hSuffix.length_le

end Grammar

namespace Source

variable {A : Alignment} {source source' : Source} {limit : Nat} {c c' : Cursor}

/-- The loop over the statements at corresponding places of two sources. -/
theorem statements_linked (hA : A.Faithful) (source source' : Source) (limit : Nat)
    {rounds rounds' : Nat} (found found' : List Stmt) (h : A.cursors c c')
    (hRounds : c.rest.length < rounds) (hRounds' : c'.rest.length < rounds') :
    Linked A.link source source'
      (fun all all' => ∃ later, all = found.reverse ++ later ∧ all' = found'.reverse ++ later)
      (source.statements limit rounds c found) (source'.statements limit rounds' c' found') := by
  apply statementsBy_linked
  · exact linked_statement hA limit
  · exact linked_separator hA limit
  · exact moves_statement limit
  · exact moves_statement limit
  · exact keeps_separator limit
  · exact keeps_separator limit
  · exact fun c c' hSame => ⟨hA.forth.ending hSame, hA.back.ending hSame⟩
  · exact h
  · exact hRounds
  · exact hRounds'

/-- Two sources of one name whose first tokens correspond are read alike. -/
theorem parseWithin_linked (hA : A.Faithful) (hName : source.filename = source'.filename)
    (hFirst : source.firstToken limit = .ok c) (hFirst' : source'.firstToken limit = .ok c')
    (h : A.cursors c c') (entry : Entry) :
    Linked A.link source source' Eq (source.parseWithin limit entry)
      (source'.parseWithin limit entry) := by
  have hEnd := linked_endOfInput hA limit
  cases entry with
  | program =>
      have hLoop := statements_linked hA source source' limit [] [] h (Nat.lt_succ_self _)
        (Nat.lt_succ_self _)
      rw [parseWithin_program hFirst, parseWithin_program hFirst']
      apply hLoop.map
      rintro all all' ⟨later, hAll, hAll'⟩
      rw [hAll, hAll', hName]
  | statement =>
      exact (whole_linked hFirst hFirst' h (linked_statement hA limit) hEnd).map
        fun _ _ hSame => congrArg _ hSame
  | expression =>
      exact (whole_linked hFirst hFirst' h (linked_expression hA limit) hEnd).map
        fun _ _ hSame => congrArg _ hSame
  | declaration =>
      exact (whole_linked hFirst hFirst' h (linked_declaration hA limit) hEnd).map
        fun _ _ hSame => congrArg _ hSame

end Source

end Scriptlet
