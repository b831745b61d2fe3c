namespace Scriptlet.Text

/-- A closed interval of code points, both ends included. -/
structure CodeRange where
  first : Nat
  last : Nat
  deriving DecidableEq

namespace CodeRange

/-- Membership in a table of intervals. The tables here are ascending and
apart, so the search stops at the first interval that begins above the code. -/
def covers (code : Nat) : List CodeRange → Bool
  | [] => false
  | range :: rest =>
    if code < range.first then false
    else if code ≤ range.last then true
    else covers code rest

/-- Each interval of a table begins beyond a bound and is not empty, and the next
ones begin beyond its end. -/
def isAscending (bound : Nat) : List CodeRange → Bool
  | [] => true
  | range :: rest => bound ≤ range.first && range.first ≤ range.last && isAscending (range.last + 1) rest

theorem le_of_isAscending {bound : Nat} {table : List CodeRange} (h : isAscending bound table = true)
    {range : CodeRange} (hRange : range ∈ table) : bound ≤ range.first := by
  induction table generalizing bound with
  | nil => cases hRange
  | cons first rest ih =>
      simp only [isAscending, Bool.and_eq_true, decide_eq_true_eq] at h
      obtain ⟨⟨hBound, hFirst⟩, hRest⟩ := h
      cases hRange with
      | head => exact hBound
      | tail _ hLater =>
          have hBeyond := ih hRest hLater
          omega

/-- In an ascending table nothing is missed by the early stop. -/
theorem covers_iff {bound : Nat} {table : List CodeRange} (h : isAscending bound table = true)
    (code : Nat) :
    covers code table = true ↔ ∃ range ∈ table, range.first ≤ code ∧ code ≤ range.last := by
  induction table generalizing bound with
  | nil => simp [covers]
  | cons first rest ih =>
      simp only [isAscending, Bool.and_eq_true, decide_eq_true_eq] at h
      obtain ⟨_, hRest⟩ := h
      simp only [covers, List.mem_cons, or_and_right, exists_or, exists_eq_left]
      by_cases hBelow : code < first.first
      · have hLater : ¬ ∃ range, range ∈ rest ∧ range.first ≤ code ∧ code ≤ range.last := by
          intro ⟨range, hRange, hFirst, _⟩
          have hBeyond := le_of_isAscending hRest hRange
          omega
        simp only [if_pos hBelow, Bool.false_eq_true, hLater, or_false, false_iff]
        omega
      · rw [if_neg hBelow]
        by_cases hWithin : code ≤ first.last
        · simp only [if_pos hWithin, true_iff]
          exact .inl ⟨Nat.le_of_not_lt hBelow, hWithin⟩
        · rw [if_neg hWithin, ih hRest]
          exact ⟨.inr, fun h => h.resolve_left fun hFirst => hWithin hFirst.2⟩

end CodeRange

end Scriptlet.Text
