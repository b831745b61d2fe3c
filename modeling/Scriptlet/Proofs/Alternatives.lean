import Mathlib.Data.List.Sort
import Scriptlet.Description
import Scriptlet.Proofs.Parsing.Step

namespace Scriptlet

namespace Labels

/-- A set of labels is known by its members. -/
theorem eq_of_mem_iff {left right : Labels}
    (h : ∀ label, label ∈ left.toList ↔ label ∈ right.toList) : left = right := by
  obtain ⟨labels, hLabels⟩ := left
  obtain ⟨others, hOthers⟩ := right
  obtain rfl : labels = others := hLabels.eq_of_mem_iff hOthers h
  rfl

theorem union_assoc (first second third : Labels) :
    (first.union second).union third = first.union (second.union third) := by
  apply eq_of_mem_iff
  intro label
  simp only [mem_union, or_assoc]

end Labels

namespace Failure

variable {left right reason all : Failure} {among among' : Failure → Prop}

/-- Of three failures it does not matter which two are compared first. -/
theorem merge_assoc (first second third : Failure) :
    (first.merge second).merge third = first.merge (second.merge third) := by
  grind [merge, Labels.union_assoc, Bool.or_assoc]

theorem offset_merge (left right : Failure) :
    (left.merge right).offset = max left.offset right.offset := by
  grind [merge]

theorem mem_expected_merge {label : String} :
    label ∈ (left.merge right).expected.toList ↔
      right.offset ≤ left.offset ∧ label ∈ left.expected.toList ∨
        left.offset ≤ right.offset ∧ label ∈ right.expected.toList := by
  grind [merge, Labels.mem_union]

/-- What there is before any alternative was tried. -/
def untried : Failure := ⟨0, Labels.empty, false⟩

theorem untried_merge (reason : Failure) : untried.merge reason = reason := by
  obtain ⟨offset, expected, consumed⟩ := reason
  cases offset with
  | zero => rfl
  | succ offset => simp [merge, untried]

/-- A failure that is not committed, at the greatest offset at which any of the given
ones lies, with just the labels of those that lie there. -/
structure IsFurthest (among : Failure → Prop) (all : Failure) : Prop where
  uncommitted : all.consumed = false
  reached : ∃ reason, among reason ∧ reason.offset = all.offset
  furthest : ∀ reason, among reason → reason.offset ≤ all.offset
  expected : ∀ label, label ∈ all.expected.toList ↔
    ∃ reason, among reason ∧ reason.offset = all.offset ∧ label ∈ reason.expected.toList

namespace IsFurthest

theorem unique (hLeft : left.IsFurthest among) (hRight : right.IsFurthest among) :
    left = right := by
  obtain ⟨reason, hReason, hReached⟩ := hLeft.reached
  obtain ⟨other, hOther, hOtherReached⟩ := hRight.reached
  have hLow := hRight.furthest reason hReason
  have hHigh := hLeft.furthest other hOther
  have hOffset : left.offset = right.offset := by omega
  have hExpected : left.expected = right.expected := by
    apply Labels.eq_of_mem_iff
    intro label
    rw [hLeft.expected, hRight.expected, hOffset]
  have hConsumed : left.consumed = right.consumed := by rw [hLeft.uncommitted, hRight.uncommitted]
  obtain ⟨offset, expected, consumed⟩ := left
  simp only at hOffset hExpected hConsumed
  rw [hOffset, hExpected, hConsumed]

/-- Whether the failures compared are committed plays no part. -/
theorem of_same (h : all.IsFurthest among)
    (hForth : ∀ reason, among reason →
      ∃ other, among' other ∧ other.offset = reason.offset ∧ other.expected = reason.expected)
    (hBack : ∀ other, among' other →
      ∃ reason, among reason ∧ reason.offset = other.offset ∧ reason.expected = other.expected) :
    all.IsFurthest among' where
  uncommitted := h.uncommitted
  reached := by
    obtain ⟨reason, hReason, hReached⟩ := h.reached
    obtain ⟨other, hOther, hOffset, _⟩ := hForth reason hReason
    exact ⟨other, hOther, hOffset.trans hReached⟩
  furthest other hOther := by
    obtain ⟨reason, hReason, hOffset, _⟩ := hBack other hOther
    exact hOffset ▸ h.furthest reason hReason
  expected label := by
    rw [h.expected]
    constructor
    · rintro ⟨reason, hReason, hReached, hLabel⟩
      obtain ⟨other, hOther, hOffset, hExpected⟩ := hForth reason hReason
      exact ⟨other, hOther, hOffset.trans hReached, hExpected ▸ hLabel⟩
    · rintro ⟨other, hOther, hReached, hLabel⟩
      obtain ⟨reason, hReason, hOffset, hExpected⟩ := hBack other hOther
      exact ⟨reason, hReason, hOffset.trans hReached, hExpected ▸ hLabel⟩

theorem congr (h : all.IsFurthest among) (hSame : ∀ reason, among reason ↔ among' reason) :
    all.IsFurthest among' :=
  h.of_same (fun reason hReason => ⟨reason, (hSame reason).mp hReason, rfl, rfl⟩)
    fun reason hReason => ⟨reason, (hSame reason).mpr hReason, rfl, rfl⟩

theorem single (hFree : reason.consumed = false) : reason.IsFurthest (· = reason) where
  uncommitted := hFree
  reached := ⟨reason, rfl, rfl⟩
  furthest other hOther := by rw [hOther]
  expected label := by simp

/-- One more failure to compare with. -/
theorem merge (h : all.IsFurthest among) (hFree : reason.consumed = false) :
    (all.merge reason).IsFurthest fun other => among other ∨ other = reason where
  uncommitted := merge_uncommitted h.uncommitted hFree
  reached := by
    obtain ⟨other, hOther, hReached⟩ := h.reached
    rw [offset_merge]
    rcases Nat.le_total all.offset reason.offset with hFurther | hFurther
    · exact ⟨reason, .inr rfl, (Nat.max_eq_right hFurther).symm⟩
    · exact ⟨other, .inl hOther, hReached.trans (Nat.max_eq_left hFurther).symm⟩
  furthest other hOther := by
    rw [offset_merge]
    rcases hOther with hOther | rfl
    · exact Nat.le_trans (h.furthest other hOther) (Nat.le_max_left _ _)
    · exact Nat.le_max_right _ _
  expected label := by
    rw [mem_expected_merge, offset_merge, h.expected]
    constructor
    · rintro (⟨hFurther, other, hOther, hReached, hLabel⟩ | ⟨hFurther, hLabel⟩)
      · exact ⟨other, .inl hOther, by omega, hLabel⟩
      · exact ⟨reason, .inr rfl, by omega, hLabel⟩
    · rintro ⟨other, hOther | rfl, hReached, hLabel⟩
      · have hLow := h.furthest other hOther
        exact .inl ⟨by omega, other, hOther, by omega, hLabel⟩
      · exact .inr ⟨by omega, hLabel⟩

end IsFurthest

end Failure

namespace Outcome

variable {α : Type}

/-- The outcome of a choice between two alternatives, given theirs. -/
def orElse : Outcome α → Outcome α → Outcome α
  | failure reason, second =>
    if reason.consumed then failure reason
    else
      match second with
      | failure other => if other.consumed then failure other else failure (reason.merge other)
      | outcome => outcome
  | outcome, _ => outcome

theorem orElse_assoc (first second third : Outcome α) :
    (first.orElse second).orElse third = first.orElse (second.orElse third) := by
  cases first with
  | success | halted => rfl
  | failure reason =>
      cases hReason : reason.consumed with
      | true => simp only [orElse, hReason, if_true]
      | false =>
          cases second with
          | success | halted => simp [orElse, hReason]
          | failure other =>
              cases hOther : other.consumed with
              | true => simp [orElse, hReason, hOther]
              | false =>
                  have hBoth := Failure.merge_uncommitted hReason hOther
                  cases third with
                  | success | halted => simp [orElse, hReason, hOther, hBoth]
                  | failure last =>
                      cases hLast : last.consumed with
                      | true => simp [orElse, hReason, hOther, hBoth, hLast]
                      | false =>
                          have hLater := Failure.merge_uncommitted hOther hLast
                          simp [orElse, hReason, hOther, hBoth, hLast, hLater, Failure.merge_assoc]

theorem untried_orElse (outcome : Outcome α) : (failure .untried).orElse outcome = outcome := by
  have hFree : Failure.untried.consumed = false := rfl
  cases outcome with
  | success | halted => rfl
  | failure reason =>
      cases hReason : reason.consumed <;> simp [orElse, hFree, hReason, Failure.untried_merge]

/-- Nothing is tried any more after an outcome that is no failure or that is committed. -/
theorem foldl_orElse_of_settled {outcome : Outcome α} (h : ∀ other, outcome.orElse other = outcome)
    (outcomes : List (Outcome α)) : outcomes.foldl orElse outcome = outcome := by
  induction outcomes with
  | nil => rfl
  | cons other outcomes ih => rw [List.foldl_cons, h, ih]

end Outcome

namespace Parser

variable {α : Type} {d : Nat} {c : Cursor} {first p : Parser α} {others parsers : List (Parser α)}

/-! A choice is made between the outcomes of its alternatives, one after the other. -/

theorem choice_eq_tryEach (first : Parser α) (others : List (Parser α)) (d : Nat) (c : Cursor) :
    (choice first others).step d c = tryEach d c .untried (first :: others) := by
  simp only [choice, tryEach, Failure.untried_merge]

theorem orElse_eq (p q : Parser α) (d : Nat) (c : Cursor) :
    (p <|> q).step d c = (p.step d c).orElse (q.step d c) := by
  cases hFirst : p.step d c with
  | success | halted => simp [orElse_step, choice, hFirst, Outcome.orElse]
  | failure reason =>
      cases hReason : reason.consumed with
      | true => simp [orElse_step, choice, hFirst, hReason, Outcome.orElse]
      | false =>
          cases hSecond : q.step d c <;>
            simp [orElse_step, choice, tryEach, hFirst, hReason, hSecond, Outcome.orElse]

theorem tryEach_eq_foldl (parsers : List (Parser α)) {failed : Failure}
    (hFailed : failed.consumed = false) :
    tryEach d c failed parsers =
      (parsers.map (·.step d c)).foldl Outcome.orElse (.failure failed) := by
  induction parsers generalizing failed with
  | nil => rfl
  | cons p parsers ih =>
      simp only [tryEach, List.map_cons, List.foldl_cons]
      cases p.step d c with
      | success value next =>
          simp only [Outcome.orElse, hFailed]
          exact (Outcome.foldl_orElse_of_settled (fun _ => rfl) _).symm
      | halted cause =>
          simp only [Outcome.orElse, hFailed]
          exact (Outcome.foldl_orElse_of_settled (fun _ => rfl) _).symm
      | failure reason =>
          cases hReason : reason.consumed with
          | true =>
              simp only [Outcome.orElse, hFailed, hReason]
              exact (Outcome.foldl_orElse_of_settled (fun _ => by simp [Outcome.orElse, hReason]) _).symm
          | false =>
              simp only [Outcome.orElse, hFailed, hReason]
              exact ih (Failure.merge_uncommitted hFailed hReason)

theorem choice_eq_foldl (first : Parser α) (others : List (Parser α)) (d : Nat) (c : Cursor) :
    (choice first others).step d c =
      ((first :: others).map (·.step d c)).foldl Outcome.orElse (.failure .untried) := by
  rw [choice_eq_tryEach, tryEach_eq_foldl _ rfl]

/-! Alternatives that all fail. -/

theorem tryEach_furthest {among : Failure → Prop} {failed : Failure}
    (hFailed : failed.IsFurthest among) (h : ∀ p ∈ parsers, Misses p d c) :
    ∃ all, tryEach d c failed parsers = .failure all ∧
      all.IsFurthest fun reason => among reason ∨ ∃ p ∈ parsers, p.step d c = .failure reason := by
  induction parsers generalizing among failed with
  | nil => exact ⟨failed, rfl, hFailed.congr fun reason => by simp⟩
  | cons p parsers ih =>
      obtain ⟨reason, hMiss, hFree⟩ := h p List.mem_cons_self
      obtain ⟨all, hAll, hFurthest⟩ := ih (hFailed.merge hFree) fun q hq =>
        h q (List.mem_cons_of_mem p hq)
      refine ⟨all, by simp [tryEach, hMiss, hFree, hAll], hFurthest.congr fun other => ?_⟩
      simp only [List.exists_mem_cons_iff, hMiss, Outcome.failure.injEq, or_assoc,
        eq_comm (a := other)]

theorem choice_furthest (h : ∀ p ∈ first :: others, Misses p d c) :
    ∃ all, (choice first others).step d c = .failure all ∧
      all.IsFurthest fun reason => ∃ p ∈ first :: others, p.step d c = .failure reason := by
  obtain ⟨reason, hMiss, hFree⟩ := h first List.mem_cons_self
  obtain ⟨all, hAll, hFurthest⟩ := tryEach_furthest (.single hFree) fun q hq =>
    h q (List.mem_cons_of_mem first hq)
  refine ⟨all, by simp [choice, hMiss, hFree, hAll], hFurthest.congr fun other => ?_⟩
  simp only [List.exists_mem_cons_iff, hMiss, Outcome.failure.injEq, eq_comm (a := other)]

/-- What is reported when no alternative commits does not depend on their order. -/
theorem choice_perm {first' : Parser α} {others' : List (Parser α)}
    (h : ∀ p ∈ first :: others, Misses p d c)
    (hPerm : (first' :: others').Perm (first :: others)) :
    (choice first' others').step d c = (choice first others).step d c := by
  obtain ⟨all, hAll, hFurthest⟩ := choice_furthest h
  obtain ⟨all', hAll', hFurthest'⟩ := choice_furthest fun p hp => h p (hPerm.mem_iff.mp hp)
  have hSame : all'.IsFurthest fun reason => ∃ p ∈ first :: others, p.step d c = .failure reason :=
    hFurthest'.congr fun reason => exists_congr fun p => and_congr_left' hPerm.mem_iff
  rw [hAll, hAll', hSame.unique hFurthest]

/-! Alternatives that are all attempted. -/

/-- No alternative matches, committed or not. -/
def AllFail (parsers : List (Parser α)) (d : Nat) (c : Cursor) : Prop :=
  ∀ p ∈ parsers, ∃ reason, p.step d c = .failure reason

/-- An alternative has this outcome, which is no failure, and all those before it fail. -/
def FirstUnfailed (parsers : List (Parser α)) (d : Nat) (c : Cursor) (outcome : Outcome α) : Prop :=
  (∀ reason, outcome ≠ .failure reason) ∧
    ∃ earlier p later, parsers = earlier ++ p :: later ∧ AllFail earlier d c ∧ p.step d c = outcome

theorem allFail_cons :
    AllFail (first :: others) d c ↔
      (∃ reason, first.step d c = .failure reason) ∧ AllFail others d c :=
  List.forall_mem_cons

theorem not_firstUnfailed_nil {outcome : Outcome α} : ¬ FirstUnfailed [] d c outcome := by
  rintro ⟨_, earlier, p, later, hSplit, _⟩
  simp at hSplit

/-- Whatever comes after an alternative that fails is the first unless that one is. -/
theorem firstUnfailed_cons_of_failure {reason : Failure} {outcome : Outcome α}
    (h : first.step d c = .failure reason) :
    FirstUnfailed (first :: others) d c outcome ↔ FirstUnfailed others d c outcome := by
  refine and_congr_right fun hUnfailed => ⟨?_, ?_⟩
  · rintro ⟨earlier, p, later, hSplit, hEarlier, hLast⟩
    cases earlier with
    | nil =>
        obtain ⟨rfl, rfl⟩ := List.cons.inj hSplit
        exact absurd (hLast.symm.trans h) (hUnfailed reason)
    | cons q earlier =>
        obtain ⟨rfl, rfl⟩ := List.cons.inj hSplit
        exact ⟨earlier, p, later, rfl, (allFail_cons.mp hEarlier).2, hLast⟩
  · rintro ⟨earlier, p, later, rfl, hEarlier, hLast⟩
    exact ⟨first :: earlier, p, later, rfl, allFail_cons.mpr ⟨⟨reason, h⟩, hEarlier⟩, hLast⟩

theorem firstUnfailed_cons_of_unfailed {outcome : Outcome α}
    (h : ∀ reason, first.step d c ≠ .failure reason) :
    FirstUnfailed (first :: others) d c outcome ↔ first.step d c = outcome := by
  constructor
  · rintro ⟨_, earlier, p, later, hSplit, hEarlier, hLast⟩
    cases earlier with
    | nil =>
        obtain ⟨rfl, rfl⟩ := List.cons.inj hSplit
        exact hLast
    | cons q earlier =>
        obtain ⟨rfl, rfl⟩ := List.cons.inj hSplit
        obtain ⟨reason, hFirst⟩ := (allFail_cons.mp hEarlier).1
        exact absurd hFirst (h reason)
  · rintro rfl
    exact ⟨h, [], first, others, rfl, List.forall_mem_nil _, rfl⟩

/-- Either all alternatives fail, or there is a first one that does not. -/
theorem allFail_or_firstUnfailed (parsers : List (Parser α)) (d : Nat) (c : Cursor) :
    AllFail parsers d c ∨ ∃ outcome, FirstUnfailed parsers d c outcome := by
  induction parsers with
  | nil => exact .inl (List.forall_mem_nil _)
  | cons p parsers ih =>
      by_cases hFirst : ∃ reason, p.step d c = .failure reason
      · obtain ⟨reason, hReason⟩ := hFirst
        simp only [firstUnfailed_cons_of_failure hReason, allFail_cons]
        exact ih.imp_left (.intro ⟨reason, hReason⟩)
      · rw [not_exists] at hFirst
        exact .inr ⟨_, (firstUnfailed_cons_of_unfailed hFirst).mpr rfl⟩

theorem attempt_of_unfailed (h : ∀ reason, p.step d c ≠ .failure reason) :
    (attempt p).step d c = p.step d c := by
  simp only [attempt]

theorem tryEach_attempts_of_firstUnfailed {outcome : Outcome α} (h : FirstUnfailed parsers d c outcome)
    (failed : Failure) : tryEach d c failed (parsers.map attempt) = outcome := by
  induction parsers generalizing failed with
  | nil => exact absurd h not_firstUnfailed_nil
  | cons p parsers ih =>
      by_cases hFirst : ∃ reason, p.step d c = .failure reason
      · obtain ⟨reason, hReason⟩ := hFirst
        have hLater := (firstUnfailed_cons_of_failure hReason).mp h
        simp [tryEach, attempt_of_failure hReason, ih hLater]
      · rw [not_exists] at hFirst
        obtain rfl := (firstUnfailed_cons_of_unfailed hFirst).mp h
        simp only [List.map_cons, tryEach, attempt_of_unfailed hFirst]

theorem choice_attempts_of_firstUnfailed {outcome : Outcome α}
    (h : FirstUnfailed (first :: others) d c outcome) :
    (choice (attempt first) (others.map attempt)).step d c = outcome := by
  rw [choice_eq_tryEach, ← List.map_cons]
  exact tryEach_attempts_of_firstUnfailed h _

theorem choice_attempts_of_allFail (h : AllFail (first :: others) d c) :
    ∃ all, (choice (attempt first) (others.map attempt)).step d c = .failure all ∧
      all.IsFurthest fun reason => ∃ p ∈ first :: others, p.step d c = .failure reason := by
  have hMisses : ∀ q ∈ attempt first :: others.map attempt, Misses q d c := by
    rw [← List.map_cons, List.forall_mem_map]
    intro p hp
    obtain ⟨reason, hReason⟩ := h p hp
    exact attempt_misses hReason
  obtain ⟨all, hAll, hFurthest⟩ := choice_furthest hMisses
  -- An attempt changes nothing but whether the failure is committed.
  refine ⟨all, hAll, hFurthest.of_same ?_ ?_⟩
  · rw [← List.map_cons]
    rintro reason ⟨q, hq, hReason⟩
    obtain ⟨p, hp, rfl⟩ := List.mem_map.mp hq
    obtain ⟨inner, hInner⟩ := h p hp
    rw [attempt_of_failure hInner] at hReason
    cases hReason
    exact ⟨inner, ⟨p, hp, hInner⟩, rfl, rfl⟩
  · rintro reason ⟨p, hp, hReason⟩
    exact ⟨_, ⟨attempt p, List.mem_map_of_mem (f := attempt) hp, attempt_of_failure hReason⟩, rfl, rfl⟩

/-- A choice between attempts does what the first alternative that does not fail does. -/
theorem choice_attempts_iff {outcome : Outcome α} (hUnfailed : ∀ reason, outcome ≠ .failure reason) :
    (choice (attempt first) (others.map attempt)).step d c = outcome ↔
      FirstUnfailed (first :: others) d c outcome := by
  refine ⟨fun h => ?_, choice_attempts_of_firstUnfailed⟩
  rcases allFail_or_firstUnfailed (first :: others) d c with hAllFail | ⟨other, hOther⟩
  · obtain ⟨all, hAll, _⟩ := choice_attempts_of_allFail hAllFail
    exact absurd (h.symm.trans hAll) (hUnfailed all)
  · rwa [← h, choice_attempts_of_firstUnfailed hOther]

theorem choice_attempts_failure_iff {all : Failure} :
    (choice (attempt first) (others.map attempt)).step d c = .failure all ↔
      AllFail (first :: others) d c ∧
        all.IsFurthest fun reason => ∃ p ∈ first :: others, p.step d c = .failure reason := by
  constructor
  · intro h
    rcases allFail_or_firstUnfailed (first :: others) d c with hAllFail | ⟨other, hOther⟩
    · obtain ⟨reported, hReported, hFurthest⟩ := choice_attempts_of_allFail hAllFail
      cases h.symm.trans hReported
      exact ⟨hAllFail, hFurthest⟩
    · have hFailure := (choice_attempts_of_firstUnfailed hOther).symm.trans h
      exact absurd hFailure (hOther.1 all)
  · rintro ⟨hAllFail, hFurthest⟩
    obtain ⟨reported, hReported, hSame⟩ := choice_attempts_of_allFail hAllFail
    rw [hReported, hSame.unique hFurthest]

/-- Where nothing halts, a match of any alternative is enough. -/
theorem choice_attempts_success_iff
    (hRuns : ∀ p ∈ first :: others, ∀ cause, p.step d c ≠ .halted cause) :
    (∃ value next, (choice (attempt first) (others.map attempt)).step d c = .success value next) ↔
      ∃ p ∈ first :: others, ∃ value next, p.step d c = .success value next := by
  constructor
  · rintro ⟨value, next, h⟩
    obtain ⟨_, earlier, p, later, hSplit, _, hMatch⟩ := (choice_attempts_iff (by simp)).mp h
    have hp : p ∈ first :: others := by simp [hSplit]
    exact ⟨p, hp, value, next, hMatch⟩
  · rintro ⟨p, hp, value, next, hMatch⟩
    rcases allFail_or_firstUnfailed (first :: others) d c with hAllFail | ⟨outcome, hOutcome⟩
    · obtain ⟨reason, hReason⟩ := hAllFail p hp
      cases hMatch.symm.trans hReason
    · have hStep := choice_attempts_of_firstUnfailed hOutcome
      obtain ⟨hUnfailed, earlier, q, later, hSplit, _, hFirst⟩ := hOutcome
      have hq : q ∈ first :: others := by simp [hSplit]
      cases outcome with
      | success value next => exact ⟨value, next, hStep⟩
      | failure reason => exact absurd rfl (hUnfailed reason)
      | halted cause => exact absurd hFirst (hRuns q hq cause)

end Parser

open Scriptlet.Parser

/-- Alternatives that are put together two by two. -/
inductive Bracketing (α : Type) where
  | single (p : Parser α)
  | either (left right : Bracketing α)

namespace Bracketing

variable {α : Type}

def parser : Bracketing α → Parser α
  | single p => p
  | either left right => left.parser <|> right.parser

/-- The alternatives in their order. -/
def alternatives : Bracketing α → List (Parser α)
  | single p => [p]
  | either left right => left.alternatives ++ right.alternatives

/-- The alternatives one after the other are no different from the two halves. -/
theorem foldl_alternatives (tree : Bracketing α) (d : Nat) (c : Cursor) (earlier : Outcome α) :
    (tree.alternatives.map (·.step d c)).foldl Outcome.orElse earlier =
      earlier.orElse (tree.parser.step d c) := by
  induction tree generalizing earlier with
  | single p => rfl
  | either left right hLeft hRight =>
      rw [alternatives, List.map_append, List.foldl_append, hLeft, hRight, Outcome.orElse_assoc,
        parser, orElse_eq]

theorem parser_eq_choice (tree : Bracketing α) {first : Parser α} {others : List (Parser α)}
    (h : tree.alternatives = first :: others) : tree.parser.step = (choice first others).step := by
  funext d c
  rw [choice_eq_foldl, ← h, foldl_alternatives, Outcome.untried_orElse]

end Bracketing

/-- What a choice does at any place and with any depth left. Alternatives may be put
together two by two in any way. If none of them commits, what is reported does not
depend on their order: it is the failure that got furthest, with the labels of all that
got as far. If all of them are attempted, the choice does what the first one does that
does not fail, be it a match or a halt, and it fails just when all of them do, without
being committed and where the one that got furthest did. -/
theorem choice_laws {α : Type} (first : Parser α) (others : List (Parser α)) (d : Nat)
    (c : Cursor) :
    (∀ tree : Bracketing α, tree.alternatives = first :: others →
      tree.parser.step d c = (choice first others).step d c) ∧
    ((∀ p ∈ first :: others, Misses p d c) →
      (∃ all, (choice first others).step d c = .failure all ∧
        all.IsFurthest fun reason => ∃ p ∈ first :: others, p.step d c = .failure reason) ∧
      ∀ first' others', (first' :: others').Perm (first :: others) →
        (choice first' others').step d c = (choice first others).step d c) ∧
    (∀ value next,
      (choice (attempt first) (others.map attempt)).step d c = .success value next ↔
        FirstUnfailed (first :: others) d c (.success value next)) ∧
    (∀ cause,
      (choice (attempt first) (others.map attempt)).step d c = .halted cause ↔
        FirstUnfailed (first :: others) d c (.halted cause)) ∧
    (∀ all,
      (choice (attempt first) (others.map attempt)).step d c = .failure all ↔
        AllFail (first :: others) d c ∧
          all.IsFurthest fun reason => ∃ p ∈ first :: others, p.step d c = .failure reason) ∧
    ((∀ p ∈ first :: others, ∀ cause, p.step d c ≠ .halted cause) →
      ((∃ value next,
        (choice (attempt first) (others.map attempt)).step d c = .success value next) ↔
          ∃ p ∈ first :: others, ∃ value next, p.step d c = .success value next)) := by
  refine ⟨fun tree hTree => ?_, fun hMisses => ⟨choice_furthest hMisses, fun _ _ hPerm => ?_⟩,
    fun value next => ?_, fun cause => ?_, fun all => ?_, choice_attempts_success_iff⟩
  · rw [tree.parser_eq_choice hTree]
  · exact choice_perm hMisses hPerm
  · exact choice_attempts_iff (by simp)
  · exact choice_attempts_iff (by simp)
  · exact choice_attempts_failure_iff

/-- Two words and a letter on a text that begins like both words: which one was tried
first is not to be seen in the failure, and attempted alternatives go back to a letter
when it is the one that stands there. -/
theorem choice_laws_letters :
    let two : Parser Char := attempt (char 'a' *> char 'b')
    let other : Parser Char := attempt (char 'a' *> char 'c')
    (∀ p ∈ [two, other, char 'x'], Misses p 1 (Cursor.place "ad".toList 0)) ∧
      (choice (char 'x') [other, two]).step 1 (Cursor.place "ad".toList 0) =
        (choice two [other, char 'x']).step 1 (Cursor.place "ad".toList 0) ∧
      (two <|> (other <|> char 'x')).step 1 (Cursor.place "ad".toList 0) =
        (choice two [other, char 'x']).step 1 (Cursor.place "ad".toList 0) ∧
      (choice (attempt (char 'a' *> char 'b')) ([char 'a'].map attempt)).step 1
        (Cursor.place "ad".toList 0) = .success 'a' (Cursor.place "ad".toList 1) := by
  intro two other
  have hMisses : ∀ p ∈ [two, other, char 'x'], Misses p 1 (Cursor.place "ad".toList 0) := by
    simp only [List.forall_mem_cons]
    exact ⟨⟨_, rfl, rfl⟩, ⟨_, rfl, rfl⟩, ⟨_, rfl, rfl⟩, List.forall_mem_nil _⟩
  obtain ⟨hBracketing, hOrder, _⟩ :=
    choice_laws two [other, char 'x'] 1 (Cursor.place "ad".toList 0)
  have hPerm : [char 'x', other, two].Perm [two, other, char 'x'] :=
    List.reverse_perm [two, other, char 'x']
  have hSame := (hOrder hMisses).2 (char 'x') [other, two] hPerm
  have hNested := hBracketing (.either (.single two) (.either (.single other) (.single (char 'x')))) rfl
  obtain ⟨_, _, hAttempts, _⟩ :=
    choice_laws (char 'a' *> char 'b') [char 'a'] 1 (Cursor.place "ad".toList 0)
  have hFirst : AllFail [char 'a' *> char 'b'] 1 (Cursor.place "ad".toList 0) := by
    rw [AllFail, List.forall_mem_singleton]
    exact ⟨_, rfl⟩
  have hMatch : FirstUnfailed [char 'a' *> char 'b', char 'a'] 1 (Cursor.place "ad".toList 0)
      (.success 'a' (Cursor.place "ad".toList 1)) :=
    ⟨by simp, [char 'a' *> char 'b'], char 'a', [], rfl, hFirst, rfl⟩
  exact ⟨hMisses, hSame, hNested, (hAttempts _ _).mpr hMatch⟩

/-- An attempt recovers from failures only: a reference without definition makes the
whole choice halt, although the alternative behind it matches. -/
theorem attempts_pass_on_halts :
    (char 'x').run "x".toList 0 = .success 'x' (Cursor.place "x".toList 1) ∧
      (choice (attempt (undefined "f")) [attempt (char 'x')]).run "x".toList 0 =
        .halted (.undefinedReference "f") ∧
      ¬ ∀ (first : Parser Char) (others : List (Parser Char)) (text : List Char) (pos : Nat),
        (∃ value next,
          (choice (attempt first) (others.map attempt)).run text pos = .success value next) ↔
            ∃ p ∈ first :: others, ∃ value next, p.run text pos = .success value next := by
  refine ⟨rfl, rfl, fun h => ?_⟩
  obtain ⟨value, next, hSuccess⟩ := (h (undefined "f") [char 'x'] "x".toList 0).mpr
    ⟨char 'x', by simp, 'x', Cursor.place "x".toList 1, rfl⟩
  cases hSuccess

end Scriptlet
