import Scriptlet.Proofs.Parsing.Link

namespace Scriptlet

/-- Places of one text set beside places of another one, in the same order. -/
structure Alignment where
  cursors : Cursor → Cursor → Prop
  offsets : Nat → Nat → Prop
  offset : ∀ {c c' : Cursor}, cursors c c' → offsets c.offset c'.offset
  ordered : ∀ {i i' j j' : Nat}, offsets i i' → offsets j j' → (i < j ↔ i' < j')

namespace Alignment

/-- The same places, seen from the other text. -/
def flip (A : Alignment) : Alignment where
  cursors c c' := A.cursors c' c
  offsets i i' := A.offsets i' i
  offset h := A.offset h
  ordered h hOther := (A.ordered h hOther).symm

/-- Both failures expect the same, at places that correspond. -/
structure SameFailure (A : Alignment) (reason reason' : Failure) : Prop where
  offset : A.offsets reason.offset reason'.offset
  expected : reason.expected = reason'.expected
  consumed : reason.consumed = reason'.consumed

variable {A : Alignment} {c c' start start' reached reached' : Cursor}
  {reason reason' left left' right right' : Failure}

theorem sameFailure_here (h : A.cursors c c') (label : String) :
    A.SameFailure (.here c label) (.here c' label) :=
  ⟨A.offset h, rfl, rfl⟩

/-- Whether a sequence has moved is the same on both sides. -/
theorem SameFailure.later (hStart : A.cursors start start') (hReached : A.cursors reached reached')
    (h : A.SameFailure reason reason') :
    A.SameFailure (reason.later start reached) (reason'.later start' reached') := by
  have hMoved := A.ordered (A.offset hStart) (A.offset hReached)
  refine ⟨h.offset, h.expected, ?_⟩
  simp only [Failure.later, h.consumed, hMoved]

/-- Which of two alternatives got further is the same on both sides. -/
theorem SameFailure.merge (hLeft : A.SameFailure left left') (hRight : A.SameFailure right right') :
    A.SameFailure (left.merge right) (left'.merge right') := by
  have hBehind := A.ordered hRight.offset hLeft.offset
  have hAhead := A.ordered hLeft.offset hRight.offset
  unfold Failure.merge
  by_cases hBack : right.offset < left.offset
  · rw [if_pos hBack, if_pos (hBehind.mp hBack)]
    exact hLeft
  · rw [if_neg hBack, if_neg (fun h => hBack (hBehind.mpr h))]
    by_cases hFurther : left.offset < right.offset
    · rw [if_pos hFurther, if_pos (hAhead.mp hFurther)]
      exact hRight
    · rw [if_neg hFurther, if_neg (fun h => hFurther (hAhead.mpr h)), hLeft.expected, hRight.expected,
        hLeft.consumed, hRight.consumed]
      exact ⟨hLeft.offset, rfl, rfl⟩

/-- Runs that differ in nothing but the places where they are. -/
def link (A : Alignment) : Link where
  cursors := A.cursors
  failures := A.SameFailure
  later hStart hReached h := h.later hStart hReached

end Alignment

namespace Parser

variable {α : Type} {A : Alignment} {d : Nat} {p : Parser α} {others : List (Parser α)}

theorem linked_pure (L : Link) (d : Nat) (value : α) :
    Linked L d (Parser.pure value) (Parser.pure value) := by
  intro c c' h
  exact .success value h

section Choice

theorem Linked.attempt (hp : Linked A.link d p p) :
    Linked A.link d (Parser.attempt p) (Parser.attempt p) := by
  intro c c' h
  have hInner := hp c c' h
  simp only [Parser.attempt]
  generalize p.step d c = outcome, p.step d c' = outcome' at hInner
  cases hInner with
  | success value hNext => exact .success value hNext
  | failure hReason => exact .failure ⟨hReason.offset, hReason.expected, rfl⟩
  | halted cause => exact .halted cause

theorem tryEach_linked (hOthers : ∀ q ∈ others, Linked A.link d q q) {c c' : Cursor}
    (h : A.cursors c c') {failed failed' : Failure} (hFailed : A.SameFailure failed failed') :
    (tryEach d c failed others).Linked A.link (tryEach d c' failed' others) := by
  induction others generalizing failed failed' with
  | nil => exact .failure hFailed
  | cons p others ih =>
      have hFirst := hOthers p List.mem_cons_self c c' h
      simp only [tryEach]
      generalize p.step d c = outcome, p.step d c' = outcome' at hFirst
      cases hFirst with
      | success value hNext => exact .success value hNext
      | halted cause => exact .halted cause
      | @failure reason reason' hReason =>
          have hConsumed := hReason.consumed
          simp only [hConsumed]
          cases reason'.consumed with
          | true => exact .failure hReason
          | false =>
              apply ih
              · intro q hq
                exact hOthers q (List.mem_cons_of_mem p hq)
              · exact hFailed.merge hReason

theorem Linked.choice (hp : Linked A.link d p p) (hOthers : ∀ q ∈ others, Linked A.link d q q) :
    Linked A.link d (Parser.choice p others) (Parser.choice p others) := by
  intro c c' h
  have hFirst := hp c c' h
  simp only [Parser.choice]
  generalize p.step d c = outcome, p.step d c' = outcome' at hFirst
  cases hFirst with
  | success value hNext => exact .success value hNext
  | halted cause => exact .halted cause
  | @failure reason reason' hReason =>
      have hConsumed := hReason.consumed
      simp only [hConsumed]
      cases reason'.consumed with
      | true => exact .failure hReason
      | false => exact tryEach_linked hOthers h hReason

theorem Linked.orElse {q : Parser α} (hp : Linked A.link d p p) (hq : Linked A.link d q q) :
    Linked A.link d (p <|> q) (p <|> q) := by
  apply hp.choice
  intro r hr
  rw [List.mem_singleton.mp hr]
  exact hq

theorem Linked.optional (hp : Linked A.link d p p) :
    Linked A.link d (Parser.optional p) (Parser.optional p) := by
  apply (hp.map some).choice
  intro r hr
  rw [List.mem_singleton.mp hr]
  exact linked_pure A.link d none

end Choice

end Parser

end Scriptlet
