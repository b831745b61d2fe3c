import Scriptlet.Number.Shortest
import Scriptlet.Proofs.Number.Digits
import Scriptlet.Proofs.Number.Rounding
import Scriptlet.Proofs.Text.Clean

namespace Scriptlet.Number

/-- The number that a decimal number stands for. -/
def Decimal.value (d : Decimal) : ℚ := d.digits * 10 ^ d.exponent

namespace Decimal

theorem readsAs_iff {d : Decimal} {x : Binary64} :
    d.readsAs x = true ↔ Binary64.nearest d.value = x := by
  rw [readsAs, decide_eq_true_iff, Binary64.ofDecimal_eq_nearest, value]

theorem value_trim (count : Nat) (d : Decimal) : (d.trim count).value = d.value := by
  induction count generalizing d with
  | zero => rfl
  | succ count ih =>
      rw [trim]
      split
      · rename_i hZero
        have hDigits : (d.digits : ℚ) = (d.digits / 10 : Nat) * 10 := by
          exact_mod_cast (Nat.div_mul_cancel (Nat.dvd_of_mod_eq_zero hZero.2)).symm
        rw [ih, value, value, hDigits, zpow_add_one₀ (by norm_num)]
        ring
      · rfl

end Decimal

theorem roundHalfEven_eq_or (num den : Nat) :
    roundHalfEven num den = num / den ∨ roundHalfEven num den = num / den + 1 := by
  simp only [roundHalfEven]
  split_ifs <;> simp

/-- Whichever of the two neighbours is taken reads as the value. -/
theorem onGrid?_readsAs {significand : Nat} {exponent grid : ℤ} {d : Decimal}
    (h : onGrid? significand exponent grid = some d) :
    d.readsAs (.finite significand exponent) = true := by
  simp only [onGrid?] at h
  split at h
  · rename_i hBelow
    split at h
    · rename_i hAbove
      obtain rfl := Option.some.inj h
      rcases roundHalfEven_eq_or _ _ with hNearest | hNearest
      · rwa [hNearest]
      · rwa [hNearest]
    · obtain rfl := Option.some.inj h
      exact hBelow
  · split at h
    · rename_i hAbove
      obtain rfl := Option.some.inj h
      exact hAbove
    · cases h

theorem shortestFrom_readsAs {significand : Nat} {exponent top : ℤ} {tries : Nat} {digits : ℤ}
    {d : Decimal} (h : shortestFrom significand exponent top tries digits = some d) :
    d.readsAs (.finite significand exponent) = true := by
  induction tries generalizing digits with
  | zero => cases h
  | succ tries ih =>
      rw [shortestFrom] at h
      split at h
      · rename_i found hFound
        obtain rfl := Option.some.inj h
        exact onGrid?_readsAs hFound
      · exact ih h

theorem value_exactDecimal (significand : Nat) (exponent : ℤ) :
    (exactDecimal significand exponent).value = significand * 2 ^ exponent := by
  have hTen : (10 : ℚ) = 5 * 2 := by norm_num
  unfold exactDecimal Decimal.value
  split
  · rename_i hWhole
    simp [← zpow_natCast, Int.toNat_of_nonneg hWhole]
  · rename_i hWhole
    have hPositive : ((-exponent).toNat : ℤ) = -exponent := by omega
    push_cast
    rw [Nat.pow_eq, Nat.cast_pow, ← zpow_natCast, hPositive, hTen, mul_zpow, zpow_neg]
    field_simp
    norm_num

/-- The decimal number that is printed reads as the number it is printed for. -/
theorem nearest_shortestDecimal {significand : Nat} {exponent : ℤ}
    (h : (Binary64.finite significand exponent).Canonical) :
    Binary64.nearest (shortestDecimal significand exponent).value =
      .finite significand exponent := by
  simp only [shortestDecimal, Decimal.value_trim]
  cases hFound : shortestFrom significand exponent
      (tenAbove significand exponent 6 ((↑significand.log2 + exponent) * 30103 / 100000 - 1)) 17 1 with
  | none =>
      -- no grid had a number that reads as the value, so that all digits are taken
      rw [Option.getD_none, value_exactDecimal]
      exact Binary64.nearest_of_canonical h
  | some d =>
      rw [Option.getD_some]
      exact Decimal.readsAs_iff.mp (shortestFrom_readsAs hFound)

/-- The number denoted by digits with a point in them or without one. -/
def pointedValue (chars : List Char) : ℚ :=
  let whole := chars.takeWhile (· ≠ '.')
  let fraction := (chars.dropWhile (· ≠ '.')).tail
  value (whole ++ fraction) * 10 ^ (-(fraction.length : ℤ))

/-- The number denoted by digits after a sign. -/
def signedValue : List Char → ℤ
  | '-' :: digits => -value digits
  | '+' :: digits => value digits
  | _ => 0

/-- The number denoted by digits and possibly an exponent of ten after `e`. -/
def writtenValue (chars : List Char) : ℚ :=
  pointedValue (chars.takeWhile (· ≠ 'e')) *
    10 ^ signedValue (chars.dropWhile (· ≠ 'e')).tail

section Notation

open Text

variable {front back : List Char}

theorem pointedValue_point (h : '.' ∉ front) :
    pointedValue (front ++ '.' :: back) = value (front ++ back) * 10 ^ (-(back.length : ℤ)) := by
  rw [pointedValue, takeWhile_mark h, dropWhile_mark h, List.tail_cons]

theorem pointedValue_whole (h : '.' ∉ front) : pointedValue front = value front := by
  rw [pointedValue, takeWhile_unmarked h, dropWhile_unmarked h]
  simp

theorem writtenValue_scaled (h : 'e' ∉ front) :
    writtenValue (front ++ 'e' :: back) = pointedValue front * 10 ^ signedValue back := by
  rw [writtenValue, takeWhile_mark h, dropWhile_mark h, List.tail_cons]

theorem writtenValue_plain (h : 'e' ∉ front) : writtenValue front = pointedValue front := by
  rw [writtenValue, takeWhile_unmarked h, dropWhile_unmarked h]
  simp [signedValue]

end Notation

theorem value_toDigits (n : Nat) : value (Nat.toDigits 10 n) = n :=
  Nat.ofDigitChars_ten_toDigits

theorem value_zeros (count : Nat) : value (List.replicate count '0') = 0 := by
  induction count with
  | zero => rfl
  | succ count ih =>
      rw [List.replicate_succ, ← List.singleton_append, value_append, ih]
      simp [value, digitValue]

/-- Zeros in front of digits count for nothing. -/
theorem value_zeros_append (count : Nat) (digits : List Char) :
    value (List.replicate count '0' ++ digits) = value digits := by
  rw [value_append, value_zeros, Nat.zero_mul, Nat.zero_add]

theorem value_append_zeros (digits : List Char) (count : Nat) :
    value (digits ++ List.replicate count '0') = value digits * 10 ^ count := by
  rw [value_append, value_zeros, List.length_replicate, Nat.add_zero]

/-- A digit or one of the marks in a number. -/
def isNumeric (c : Char) : Bool := c.isDigit || ['.', 'e', '+', '-'].contains c

theorem le_of_isNumeric {c : Char} (h : isNumeric c = true) : 32 ≤ c.toNat := by
  rw [isNumeric, Bool.or_eq_true] at h
  rcases h with hDigit | hMark
  · exact Nat.le_trans (by decide) (Char.isDigit_iff_toNat.mp hDigit).1
  · have hMarks : ∀ c ∈ ['.', 'e', '+', '-'], 32 ≤ c.toNat := by simp
    exact hMarks c (by simpa using hMark)

theorem isDigit_of_mem_toDigits {n : Nat} : ∀ c ∈ Nat.toDigits 10 n, c.isDigit = true :=
  fun _ hc => Nat.isDigit_of_mem_toDigits (by decide) (by decide) hc

theorem not_mem_of_isDigit {digits : List Char} (h : ∀ c ∈ digits, c.isDigit = true) (mark : Char)
    (hMark : mark.isDigit = false) : mark ∉ digits :=
  fun hMem => by simp [h mark hMem] at hMark

/-- Digits with a point in them denote their value divided by a power of ten. -/
theorem writtenValue_point {whole fraction : List Char} (hWhole : ∀ c ∈ whole, c.isDigit = true)
    (hFraction : ∀ c ∈ fraction, c.isDigit = true) :
    writtenValue (whole ++ '.' :: fraction) =
      value (whole ++ fraction) * 10 ^ (-(fraction.length : ℤ)) := by
  have hLetter : 'e' ∉ whole ++ '.' :: fraction := by
    simp [not_mem_of_isDigit hWhole 'e' rfl, not_mem_of_isDigit hFraction 'e' rfl]
  rw [writtenValue_plain hLetter, pointedValue_point (not_mem_of_isDigit hWhole '.' rfl)]

section Layouts

variable {digits : List Char} (hDigits : ∀ c ∈ digits, c.isDigit = true)
include hDigits

theorem writtenValue_below (count : Nat) :
    writtenValue ('0' :: '.' :: List.replicate count '0' ++ digits) =
      value digits * 10 ^ (-(count + digits.length : ℤ)) := by
  have hFraction : ∀ c ∈ List.replicate count '0' ++ digits, c.isDigit = true := by
    intro c hc
    rcases List.mem_append.mp hc with hZero | hDigit
    · rw [List.eq_of_mem_replicate hZero]
      rfl
    · exact hDigits c hDigit
  have hZero : ∀ c ∈ ['0'], c.isDigit = true := List.forall_mem_singleton.mpr rfl
  have hPoint := writtenValue_point hZero hFraction
  have hValue : value (['0'] ++ (List.replicate count '0' ++ digits)) = value digits :=
    value_zeros_append (count + 1) digits
  rw [hValue, List.length_append, List.length_replicate] at hPoint
  exact_mod_cast hPoint

theorem writtenValue_above (count : Nat) :
    writtenValue (digits ++ List.replicate count '0' ++ ['.', '0']) =
      value digits * 10 ^ (count : ℤ) := by
  have hWhole : ∀ c ∈ digits ++ List.replicate count '0', c.isDigit = true := by
    intro c hc
    rcases List.mem_append.mp hc with hDigit | hZero
    · exact hDigits c hDigit
    · rw [List.eq_of_mem_replicate hZero]
      rfl
  have hValue : value (digits ++ List.replicate count '0' ++ ['0']) =
      value digits * 10 ^ count * 10 := by
    rw [value_append, value_append_zeros]
    simp [value, digitValue]
  rw [writtenValue_point hWhole (List.forall_mem_singleton.mpr rfl), hValue]
  simp

theorem writtenValue_within {place : Nat} (hPlace : place ≤ digits.length) :
    writtenValue (digits.take place ++ '.' :: digits.drop place) =
      value digits * 10 ^ (place - digits.length : ℤ) := by
  rw [writtenValue_point (fun c hc => hDigits c (List.mem_of_mem_take hc))
    (fun c hc => hDigits c (List.mem_of_mem_drop hc)), List.take_append_drop, List.length_drop,
    Nat.cast_sub hPlace, neg_sub]

end Layouts

/-- A point after the first digit. -/
theorem writtenValue_scientific {digit : Char} {rest exponent : List Char}
    (hDigits : ∀ c ∈ digit :: rest, c.isDigit = true) :
    writtenValue (digit :: '.' :: rest ++ 'e' :: exponent) =
      value (digit :: rest) * 10 ^ (-(rest.length : ℤ)) * 10 ^ signedValue exponent := by
  have hWhole : ∀ c ∈ [digit], c.isDigit = true := fun c hc =>
    hDigits c (List.mem_singleton.mp hc ▸ List.mem_cons_self)
  have hLetter : 'e' ∉ digit :: '.' :: rest := by
    have hAbsent := not_mem_of_isDigit hDigits 'e' rfl
    simp only [List.mem_cons, not_or] at hAbsent ⊢
    exact ⟨hAbsent.1, by decide, hAbsent.2⟩
  rw [writtenValue_scaled hLetter]
  congr 1
  exact pointedValue_point (not_mem_of_isDigit hWhole '.' rfl)

theorem signedValue_of_value {exponent : ℤ} {digits : List Char}
    (h : value digits = exponent.natAbs) :
    signedValue ((if exponent < 0 then '-' else '+') :: digits) = exponent := by
  split_ifs with hSign
  · rw [signedValue, h]
    omega
  · rw [signedValue, h]
    omega

theorem value_padded (n : Nat) :
    value (if (Nat.toDigits 10 n).length < 2 then '0' :: Nat.toDigits 10 n
      else Nat.toDigits 10 n) = n := by
  split_ifs
  · exact (value_zeros_append 1 _).trans (value_toDigits n)
  · exact value_toDigits n

namespace Decimal

/-- The text of a decimal number denotes it, in each of the layouts. -/
theorem writtenValue_text (d : Decimal) : writtenValue d.text.toList = d.value := by
  have hDigits := isDigit_of_mem_toDigits (n := d.digits)
  have hNonempty : 0 < (Nat.toDigits 10 d.digits).length :=
    List.length_pos_of_ne_nil Nat.toDigits_ne_nil
  have hValue := value_toDigits d.digits
  simp only [text, value]
  generalize Nat.toDigits 10 d.digits = digits at *
  split
  · rename_i hLayout
    rw [String.toList_ofList]
    split
    · rename_i hBelow
      rw [writtenValue_below hDigits, hValue]
      congr 2
      omega
    · split
      · rename_i hAbove
        rw [writtenValue_above hDigits, hValue]
        congr 2
        omega
      · rename_i hWithin
        rw [writtenValue_within hDigits (by omega), hValue]
        congr 2
        omega
  · rw [String.toList_ofList]
    match digits, hDigits, hNonempty with
    | [digit], hDigits, _ =>
        rw [writtenValue_scaled (not_mem_of_isDigit hDigits 'e' rfl),
          signedValue_of_value (value_padded _),
          pointedValue_whole (not_mem_of_isDigit hDigits '.' rfl), hValue]
        congr 2
        simp
    | digit :: second :: rest, hDigits, _ =>
        rw [writtenValue_scientific hDigits, signedValue_of_value (value_padded _), hValue, mul_assoc,
          ← zpow_add₀ (by norm_num)]
        congr 2
        simp only [List.length_cons]
        push_cast
        ring

theorem isNumeric_of_mem_text (d : Decimal) : ∀ c ∈ d.text.toList, isNumeric c = true := by
  have hDigits : ∀ n, ∀ c ∈ Nat.toDigits 10 n, isNumeric c = true := by
    intro n c hc
    simp [isNumeric, isDigit_of_mem_toDigits c hc]
  have hZeros : ∀ count, ∀ c ∈ List.replicate count '0', isNumeric c = true := by
    intro count c hc
    rw [List.eq_of_mem_replicate hc]
    rfl
  have hNumber := hDigits d.digits
  simp only [text]
  generalize Nat.toDigits 10 d.digits = digits at *
  split
  · rw [String.toList_ofList]
    split_ifs
    · simp only [List.forall_mem_append, List.forall_mem_cons]
      exact ⟨⟨rfl, rfl, hZeros _⟩, hNumber⟩
    · simp only [List.forall_mem_append]
      exact ⟨⟨hNumber, hZeros _⟩, List.all_eq_true.mp rfl⟩
    · simp only [List.forall_mem_append, List.forall_mem_cons]
      exact ⟨fun c hc => hNumber c (List.mem_of_mem_take hc), rfl,
        fun c hc => hNumber c (List.mem_of_mem_drop hc)⟩
  · rw [String.toList_ofList]
    simp only [List.forall_mem_append, List.forall_mem_cons]
    refine ⟨?_, rfl, ?_, ?_⟩
    · split
      · exact hNumber
      · exact hNumber
      · simp only [List.forall_mem_cons] at hNumber ⊢
        exact ⟨hNumber.1, rfl, hNumber.2⟩
    · split_ifs <;> rfl
    · split_ifs
      · simp only [List.forall_mem_cons]
        exact ⟨rfl, hDigits _⟩
      · exact hDigits _

end Decimal

namespace Binary64

/-- Everything that can be printed of a number: its digits, or that there is no
end to them. -/
theorem text_of_finite {significand : Nat} {exponent : ℤ}
    (h : (finite significand exponent).Canonical) :
    (∀ c ∈ (finite significand exponent).text.toList, isNumeric c = true) ∧
      nearest (writtenValue (finite significand exponent).text.toList) =
        finite significand exponent := by
  rw [text]
  split
  · rename_i hZero
    have hExponent : exponent = -1074 := h.2.2.2.resolve_left (by simp [hZero])
    refine ⟨List.all_eq_true.mp rfl, ?_⟩
    have hNone : writtenValue ['0', '.', '0'] = 0 :=
      (writtenValue_above (List.forall_mem_singleton.mpr rfl) 0).trans (by simp [value, digitValue])
    change nearest (writtenValue ['0', '.', '0']) = _
    rw [hNone, hZero, hExponent]
    rfl
  · refine ⟨Decimal.isNumeric_of_mem_text _, ?_⟩
    rw [Decimal.writtenValue_text]
    exact nearest_shortestDecimal h

/-- No two numbers are written alike. -/
theorem eq_of_text_eq {x y : Binary64} (hx : x.Canonical) (hy : y.Canonical)
    (hSame : x.text = y.text) : x = y := by
  have hMixed : ∀ {significand exponent}, (finite significand exponent).Canonical →
      text infinite ≠ text (finite significand exponent) := by
    intro significand exponent hCanonical hSame
    have hNumeric := (text_of_finite hCanonical).1
    rw [← hSame] at hNumeric
    exact absurd (hNumeric 'i' (by decide)) (by decide)
  match x, y with
  | infinite, infinite => rfl
  | infinite, finite _ _ => exact absurd hSame (hMixed hy)
  | finite _ _, infinite => exact absurd hSame.symm (hMixed hx)
  | finite _ _, finite _ _ =>
      rw [← (text_of_finite hx).2, ← (text_of_finite hy).2, hSame]

end Binary64

end Scriptlet.Number
