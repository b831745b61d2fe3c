import Mathlib.Data.List.Induction
import Mathlib.Data.Nat.Digits.Defs
import Mathlib.Tactic.Ring
import Scriptlet.Number.Digits

namespace Scriptlet.Number

/-- Digits in some base behind a total that they continue. -/
theorem foldl_positional (base : Nat) (digit : Char → Nat) (digits : List Char) (total : Nat) :
    digits.foldl (fun total c => base * total + digit c) total =
      total * base ^ digits.length +
        digits.foldl (fun total c => base * total + digit c) 0 := by
  induction digits generalizing total with
  | nil => simp
  | cons c digits ih =>
      simp only [List.foldl_cons, List.length_cons, ih (base * total + digit c),
        ih (base * 0 + digit c)]
      ring

/-- Positional notation: the digits in front count for as many powers of ten
as there are digits behind them. -/
theorem value_append (front back : List Char) :
    value (front ++ back) = value front * 10 ^ back.length + value back := by
  rw [value, List.foldl_append, foldl_positional]
  rfl

/-- The value is the one of the digits from the last to the first. -/
theorem value_eq_ofDigits (digits : List Char) :
    value digits = Nat.ofDigits 10 (digits.reverse.map digitValue) := by
  induction digits using List.reverseRecOn with
  | nil => rfl
  | append_singleton digits c ih =>
      have hLast : value [c] = digitValue c := by simp [value]
      rw [value_append, hLast, ih, List.reverse_concat, List.map_cons, Nat.ofDigits_cons,
        List.length_singleton]
      ring

/-- The blocks still to be converted are added at their place below the total. -/
theorem addBlocks_eq (blocks total : Nat) (digits : List Char) (h : digits.length ≤ blocks) :
    Id.run (addBlocks (fun block => pure (value block)) blocks total digits) =
      total * 10 ^ digits.length + value digits := by
  induction blocks generalizing total digits with
  | zero =>
      have hNil : digits = [] := List.length_eq_zero_iff.mp (Nat.le_zero.mp h)
      simp [hNil, addBlocks, value]
  | succ blocks ih =>
      cases digits with
      | nil => simp [addBlocks, value]
      | cons c digits =>
          have hShorter : ((c :: digits).drop blockLength).length ≤ blocks := by
            simp only [List.length_drop, List.length_cons, blockLength] at h ⊢
            omega
          let block := (c :: digits).take blockLength
          let later := (c :: digits).drop blockLength
          have hSplit : block ++ later = c :: digits := List.take_append_drop ..
          calc
            Id.run (addBlocks (fun block => pure (value block)) (blocks + 1) total (c :: digits))
                = Id.run (addBlocks (fun block => pure (value block)) blocks
                    (total * 10 ^ block.length + value block) later) := rfl
            _ = (total * 10 ^ block.length + value block) * 10 ^ later.length + value later :=
                ih _ _ hShorter
            _ = total * 10 ^ (block ++ later).length + value (block ++ later) := by
                rw [value_append, List.length_append, Nat.pow_add]
                ring
            _ = total * 10 ^ (c :: digits).length + value (c :: digits) := by rw [hSplit]

/-- Conversion in blocks gives the positional value, whatever the length. -/
theorem decimalValue_eq_value (digits : List Char) : decimalValue digits = value digits := by
  rw [decimalValue, addBlocks_eq _ _ _ (Nat.le_refl _)]
  simp

/-- How many digits at most the routine for a whole number takes. -/
def conversionLimit : Nat := 4300

/-- Conversion of digits at once by a routine that takes at most so many. -/
def valueWithin? (limit : Nat) (digits : List Char) : Option Nat :=
  if digits.length ≤ limit then some (value digits) else none

/-- Conversion in blocks that leaves every block to the limited routine. -/
def decimalValueWithin? (limit : Nat) (digits : List Char) : Option Nat :=
  addBlocks (valueWithin? limit) digits.length 0 digits

theorem length_block (digits : List Char) :
    (digits.take blockLength).length = min digits.length blockLength := by
  rw [List.length_take, Nat.min_comm]

/-- A routine that can fail goes through the same totals as long as it does not. -/
theorem addBlocks_within {limit : Nat} (blocks total : Nat) (digits : List Char)
    (h : min digits.length blockLength ≤ limit) :
    addBlocks (valueWithin? limit) blocks total digits =
      some (Id.run (addBlocks (fun block => pure (value block)) blocks total digits)) := by
  induction blocks generalizing total digits with
  | zero => rfl
  | succ blocks ih =>
      cases digits with
      | nil => rfl
      | cons c digits =>
          have hBlock : ((c :: digits).take blockLength).length ≤ limit := by
            rwa [length_block]
          have hLater : min ((c :: digits).drop blockLength).length blockLength ≤ limit := by
            rw [List.length_drop]
            omega
          have hConverted : valueWithin? limit ((c :: digits).take blockLength) =
              some (value ((c :: digits).take blockLength)) := if_pos hBlock
          simp only [addBlocks, hConverted, Option.bind_eq_bind, Option.bind_some, pure_bind,
            ih _ _ hLater]

/-- No literal is too long for the limited routine, since no block is. -/
theorem decimalValueWithin?_eq {limit : Nat} (hLimit : blockLength ≤ limit) (digits : List Char) :
    decimalValueWithin? limit digits = some (decimalValue digits) :=
  addBlocks_within _ _ _ (Nat.le_trans (Nat.min_le_right ..) hLimit)

/-- The routine is needed for as many digits as there are, or for a whole block. -/
theorem decimalValueWithin?_eq_ite (limit : Nat) (digits : List Char) :
    decimalValueWithin? limit digits =
      if min digits.length blockLength ≤ limit then some (decimalValue digits) else none := by
  by_cases h : min digits.length blockLength ≤ limit
  · rw [if_pos h]
    exact addBlocks_within _ _ _ h
  · rw [if_neg h]
    cases digits with
    | nil => exact absurd (Nat.zero_le limit) h
    | cons c digits =>
        rw [← length_block] at h
        have hFails : valueWithin? limit ((c :: digits).take blockLength) = none := if_neg h
        simp only [decimalValueWithin?, List.length_cons, addBlocks, hFails, Option.bind_eq_bind,
          Option.bind_none]

end Scriptlet.Number
