import Scriptlet.Proofs.Driver
import Scriptlet.Proofs.Grammar.Depth
import Scriptlet.Proofs.OpenGroups

namespace Scriptlet

open Grammar Scriptlet.Parser

namespace Source

/-- The error of a production that was started at an offset and gave up on
nesting. Nothing in particular was expected there. -/
def nestingError (source : Source) (offset : Nat) : ParseError :=
  .place offset [] source.text source.filename (some "input is nested too deeply to parse")

/-- The result with the lower limit is the one with the higher limit, unless it
is an error of nesting. -/
inductive UpTo (source : Source) {α : Type} : Except Fault α → Except Fault α → Prop where
  | gaveUp (offset : Nat) (result : Except Fault α) :
      UpTo source (.error (.rejected (source.nestingError offset))) result
  | same (result : Except Fault α) : UpTo source result result

variable {α β : Type} {source : Source} {limit higher : Nat} {c next last : Cursor}

theorem UpTo.map {result other : Except Fault α} (h : source.UpTo result other) (f : α → β) :
    source.UpTo (result.map f) (other.map f) := by
  cases h with
  | gaveUp offset => exact .gaveUp offset _
  | same => exact .same _

theorem applyWithin_upTo (source : Source) {p : Parser α} (hp : Lasts limit higher p) (c : Cursor) :
    source.UpTo (source.applyWithin limit p c) (source.applyWithin higher p c) := by
  have hStep := hp c
  simp only [applyWithin]
  generalize p.step limit c = outcome, p.step higher c = outcome' at hStep
  cases hStep with
  | gaveUp => exact .gaveUp c.offset _
  | same => exact .same _

/-- The first token is found without any depth. -/
theorem firstToken_eq (source : Source) :
    ∃ c, ∀ limit, source.firstToken limit = .ok c := by
  obtain ⟨lead, text, hText, hLead, hNoBlank⟩ := exists_run isBlank source.text
  exact ⟨source.before text, fun limit => firstToken_of_lead hText hLead hNoBlank⟩

/-- The loop adds no depth: every statement begins with all of it. -/
theorem statements_upTo (h : limit ≤ higher) (rounds : Nat) (c : Cursor) (found : List Stmt) :
    source.UpTo (source.statements limit rounds c found)
      (source.statements higher rounds c found) := by
  induction rounds generalizing c found with
  | zero => exact .same _
  | succ rounds ih =>
      rw [statements_succ, statements_succ]
      by_cases hEnd : c.rest.isEmpty
      · rw [if_pos hEnd, if_pos hEnd]
        exact .same _
      · have hStatement := applyWithin_upTo source (lasts_statement h) c
        rw [if_neg hEnd, if_neg hEnd]
        generalize source.applyWithin limit statement c = result,
          source.applyWithin higher statement c = result' at hStatement
        cases hStatement with
        | gaveUp offset => exact .gaveUp offset _
        | same =>
            rcases result with fault | ⟨s, next⟩
            · exact .same _
            · cases s with
              | declaration v => exact ih next (.declaration v :: found)
              | expression e =>
                  have hLasts : Lasts limit higher statementSeparator := lasts_separator
                  have hSeparator := applyWithin_upTo source hLasts next
                  simp only
                  generalize source.applyWithin limit statementSeparator next = result,
                    source.applyWithin higher statementSeparator next = result' at hSeparator
                  cases hSeparator with
                  | gaveUp offset => exact .gaveUp offset _
                  | same =>
                      rcases result with fault | ⟨separator, last⟩
                      · exact .same _
                      · exact ih last (.expression e :: found)

theorem wholeWithin_upTo {p : Parser α} (hp : Lasts limit higher p) :
    source.UpTo (source.wholeWithin limit p) (source.wholeWithin higher p) := by
  obtain ⟨c, hFirst⟩ := source.firstToken_eq
  have hWhole : ∀ limit, source.wholeWithin limit p =
      (source.applyWithin limit (p <* endOfInput) c).map Prod.fst := fun limit =>
    wholeWithin_eq (hFirst limit)
  rw [hWhole, hWhole]
  exact (applyWithin_upTo source (hp.keepLeft lasts_endOfInput) c).map Prod.fst

/-- A higher limit makes no difference to a source that is read within a lower
one. -/
theorem parseWithin_upTo (h : limit ≤ higher) (source : Source) (entry : Entry) :
    source.UpTo (source.parseWithin limit entry) (source.parseWithin higher entry) := by
  cases entry with
  | program =>
      obtain ⟨c, hFirst⟩ := source.firstToken_eq
      rw [parseWithin_program (hFirst limit), parseWithin_program (hFirst higher)]
      exact (statements_upTo h _ c []).map _
  | statement => exact (wholeWithin_upTo (lasts_statement h)).map _
  | expression => exact (wholeWithin_upTo (lasts_expression h)).map _
  | declaration => exact (wholeWithin_upTo (lasts_declaration h)).map _

/-! Sources with few open groups. -/

/-- What went wrong in a text is told by the labels, in words of their own. -/
theorem message_of_labels (offset : Nat) (expected : List String) (text : List Char)
    (filename : String) : (ParseError.place offset expected text filename none).message ≠
      "input is nested too deeply to parse" := by
  intro hSame
  have hHead := congrArg (fun message => message.toList.head?) hSame
  simp [ParseError.place] at hHead

/-- With fewer groups open at any place than the limit the parser never gives up. -/
theorem nested_within (hOpen : ∀ n, openGroups (source.text.take n) < limit) (entry : Entry) :
    ∀ error, source.parseWithin limit entry = .error (.rejected error) →
      error.message ≠ "input is nested too deeply to parse" := by
  intro error hError
  obtain ⟨lead, text, hText, hLead, _, hOutcome⟩ := exists_parseOutcome hError
  cases hOutcome with
  | rejected => exact message_of_labels _ _ _ _
  | tooDeep hExhausted hBefore hWritten =>
      have hAll := hBefore.append hWritten
      obtain ⟨head, rfl, hLayout⟩ := hAll.layout
      rw [hText] at hOpen
      have hDepth := depth_lt_of_layout hOpen hLead hLayout hAll.valid
      rw [hExhausted.depth_after] at hDepth
      exact absurd hDepth (Nat.lt_irrefl limit)

/-- What comes of a source when nesting is not limited at all: what every limit
gives that is high enough. -/
def Unlimited (source : Source) (entry : Entry) (result : Except Fault Node) : Prop :=
  ∃ enough, ∀ limit, enough ≤ limit → source.parseWithin limit entry = result

theorem unlimited_of_within (hOpen : ∀ n, openGroups (source.text.take n) < limit) (entry : Entry) :
    source.Unlimited entry (source.parseWithin limit entry) := by
  refine ⟨limit, fun higher hHigher => ?_⟩
  have hUpTo := parseWithin_upTo hHigher source entry
  have hNever := nested_within hOpen entry
  generalize source.parseWithin limit entry = result, source.parseWithin higher entry = result'
    at hUpTo hNever
  cases hUpTo with
  | gaveUp => exact absurd rfl (hNever _ rfl)
  | same => rfl

/-- Every source has such a result, since a text cannot open more groups than it
has characters. -/
theorem exists_unlimited (source : Source) (entry : Entry) :
    source.Unlimited entry (source.parseWithin (source.text.length + 1) entry) := by
  apply unlimited_of_within
  intro n
  have hGroups := openGroups_le_length (source.text.take n)
  have hTake := List.length_take_le' n source.text
  omega

/-! Sources that begin a production with too many groups. -/

/-- Where the loop over the statements of a source has a statement read. -/
inductive StatementAt (limit : Nat) (source : Source) : Cursor → Prop where
  | first {c : Cursor} (hFirst : source.firstToken limit = .ok c) : StatementAt limit source c
  | declaration {c next : Cursor} {v : Variable} (h : StatementAt limit source c)
      (hRead : source.applyWithin limit statement c = .ok (.declaration v, next)) :
      StatementAt limit source next
  | expression {c next last : Cursor} {e : Expr} {separator : Option Char}
      (h : StatementAt limit source c)
      (hRead : source.applyWithin limit statement c = .ok (.expression e, next))
      (hSeparator : source.applyWithin limit statementSeparator next = .ok (separator, last)) :
      StatementAt limit source last

/-- Where the production of an entry is applied: at each statement of a program,
otherwise only at the first token. -/
def AppliesAt (limit : Nat) (source : Source) : Entry → Cursor → Prop
  | .program, c => StatementAt limit source c
  | .statement, c | .expression, c | .declaration, c => source.firstToken limit = .ok c

/-- From each of its statements on a program is read by the rest of the loop,
with rounds for all that follows. -/
theorem StatementAt.loop (h : StatementAt limit source c) :
    ∃ rounds found, c.rest.length < rounds ∧ source.parseWithin limit .program =
      (source.statements limit rounds c found).map fun all => .program ⟨all, source.filename⟩ := by
  induction h with
  | @first c hFirst => exact ⟨c.rest.length + 1, [], Nat.lt_succ_self _, parseWithin_program hFirst⟩
  | @declaration c next v _ hRead ih =>
      obtain ⟨rounds, found, hRounds, hLoop⟩ := ih
      obtain ⟨fewer, rfl⟩ : ∃ fewer, rounds = fewer + 1 := ⟨rounds - 1, by omega⟩
      have hStep := applyWithin_ok hRead
      have hMoves := moves_statement limit c _ next hStep
      have hRest : c.rest ≠ [] := List.ne_nil_of_length_pos (by omega)
      rw [statements_declaration hRest hStep] at hLoop
      exact ⟨fewer, .declaration v :: found, by omega, hLoop⟩
  | @expression c next last e separator _ hRead hSeparator ih =>
      obtain ⟨rounds, found, hRounds, hLoop⟩ := ih
      obtain ⟨fewer, rfl⟩ : ∃ fewer, rounds = fewer + 1 := ⟨rounds - 1, by omega⟩
      have hStep := applyWithin_ok hRead
      have hStepSeparator := applyWithin_ok hSeparator
      have hMoves := moves_statement limit c _ next hStep
      have hKeeps := keeps_separator limit next _ last hStepSeparator
      have hRest : c.rest ≠ [] := List.ne_nil_of_length_pos (by omega)
      rw [statements_expression hRest hStep hStepSeparator] at hLoop
      exact ⟨fewer, .expression e :: found, by omega, hLoop⟩

/-- A production that begins with as many groups as there is depth, wherever it
is applied, makes the error of the whole source. -/
theorem nestingError_of_startsGroups {entry : Entry} (h : source.AppliesAt limit entry c)
    (hGroups : StartsGroups limit c.rest) (hLimit : 0 < limit) (hEntry : entry ≠ .declaration) :
    source.parseWithin limit entry = .error (.rejected (source.nestingError c.offset)) := by
  cases entry with
  | program =>
      obtain ⟨rounds, found, hRounds, hLoop⟩ := StatementAt.loop h
      obtain ⟨fewer, rfl⟩ : ∃ fewer, rounds = fewer + 1 := ⟨rounds - 1, by omega⟩
      have hRest : c.rest ≠ [] := by
        intro hNil
        obtain ⟨n, rfl⟩ : ∃ n, limit = n + 1 := ⟨limit - 1, by omega⟩
        have hHead := hGroups.head?
        rw [hNil] at hHead
        cases hHead
      rw [hLoop, statements_tooDeep hRest (statement_of_startsGroups hGroups hLimit)]
      rfl
  | statement =>
      rw [parseWithin, whole_of_tooDeep h (statement_of_startsGroups hGroups hLimit)]
      rfl
  | expression =>
      rw [parseWithin, whole_of_tooDeep h (expression_of_startsGroups hGroups)]
      rfl
  | declaration => exact absurd rfl hEntry

end Source

/-- Only groups count for nesting. Whatever the number of groups that may be
open at once, from a hundred to fifteen hundred less one, a source that opens no
more than a hundred at once gives the result that it has without any limit. A
production of a program, a statement or an expression that begins with fifteen
hundred groups is an error at the very place where it begins. -/
theorem nesting_bounded_by_groups (groups : Nat) (hFew : 100 ≤ groups) (hMany : groups < 1500)
    (source : Source) (entry : Entry) :
    ((∀ n, openGroups (source.text.take n) ≤ 100) →
      (∀ error, source.parseWithin (groups + 1) entry = .error (.rejected error) →
        error.message ≠ "input is nested too deeply to parse") ∧
      source.Unlimited entry (source.parseWithin (groups + 1) entry)) ∧
    ∀ c, source.AppliesAt (groups + 1) entry c → StartsGroups 1500 c.rest →
      entry ≠ .declaration →
        source.parseWithin (groups + 1) entry = .error (.rejected
          (.place c.offset [] source.text source.filename
            (some "input is nested too deeply to parse"))) := by
  constructor
  · intro hShallow
    have hOpen : ∀ n, openGroups (source.text.take n) < groups + 1 := fun n =>
      Nat.lt_succ_of_le (Nat.le_trans (hShallow n) hFew)
    exact ⟨Source.nested_within hOpen entry, Source.unlimited_of_within hOpen entry⟩
  · intro c hApplies hGroups hEntry
    have hLimit : groups + 1 ≤ 1500 := hMany
    exact Source.nestingError_of_startsGroups hApplies (hGroups.mono hLimit) (Nat.succ_pos groups)
      hEntry

/-- A group is read within any limit that is considered. Fifteen hundred of them
are an error where they begin, behind the blanks in front. -/
theorem nesting_bounded_by_groups_replicate :
    Source.Unlimited ⟨"<stdin>", "(x)".toList⟩ .expression (.ok (.expr (.parens (.var "x")))) ∧
      Source.parseWithin 1000 ⟨"<stdin>", [' '] ++ List.replicate 1500 '('⟩ .program =
        .error (.rejected (.place 1 [] ([' '] ++ List.replicate 1500 '(') "<stdin>"
          (some "input is nested too deeply to parse"))) := by
  have hShallow : ∀ n, openGroups ("(x)".toList.take n) ≤ 100 := by
    intro n
    have hLength := openGroups_le_length ("(x)".toList.take n)
    have hTake := List.length_take_le' n "(x)".toList
    have hText : "(x)".toList.length = 3 := rfl
    omega
  obtain ⟨hWithin, _⟩ := nesting_bounded_by_groups 999 (by decide) (by decide)
    ⟨"<stdin>", "(x)".toList⟩ .expression
  refine ⟨(hWithin hShallow).2, ?_⟩
  obtain ⟨_, hDeep⟩ := nesting_bounded_by_groups 999 (by decide) (by decide)
    ⟨"<stdin>", [' '] ++ List.replicate 1500 '('⟩ .program
  have hGroups := StartsGroups.replicate 1500
  generalize List.replicate 1500 '(' = text at hDeep hGroups
  have hNoBlank : NoBlank text := hGroups.noBlank
  have hBlank : IsBlank [' '] := by decide
  have hFirst : Source.firstToken 1000 ⟨"<stdin>", [' '] ++ text⟩ =
      .ok (Source.before ⟨"<stdin>", [' '] ++ text⟩ text) :=
    Source.firstToken_of_lead rfl hBlank hNoBlank
  have hStart : (Source.before ⟨"<stdin>", [' '] ++ text⟩ text).rest = text :=
    Source.rest_before (List.suffix_append [' '] text)
  have hOffset : (Source.before ⟨"<stdin>", [' '] ++ text⟩ text).offset = 1 := by
    rw [Source.offset_before, List.length_append, Nat.add_sub_cancel]
    rfl
  have hError := hDeep _ (.first hFirst) (hStart.symm ▸ hGroups) (by decide)
  rwa [hOffset] at hError

end Scriptlet
