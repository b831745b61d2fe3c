import Mathlib.Algebra.Order.Field.Power
import Mathlib.Algebra.Order.Floor.Semifield
import Mathlib.Data.Int.Log
import Mathlib.Data.Rat.Floor
import Mathlib.Tactic.FieldSimp
import Mathlib.Tactic.GCongr
import Mathlib.Tactic.Linarith
import Mathlib.Tactic.Positivity
import Scriptlet.Number.Binary64

namespace Scriptlet.Number

variable {num den : Nat} {q : ℚ}

/-- A power with an integer exponent as the quotient of two powers, of which
one is 1. -/
theorem zpow_eq_div {b : ℚ} (hb : b ≠ 0) (e : ℤ) : b ^ e = b ^ e.toNat / b ^ (-e).toNat := by
  rw [← zpow_natCast, ← zpow_natCast, ← zpow_sub₀ hb]
  congr 1
  omega

/-- Scaling a quotient by a power of two, whichever part of it takes the power. -/
theorem scaled_quotient (num den : Nat) (e : ℤ) :
    ((num * 2 ^ (-e).toNat : Nat) : ℚ) / ((den * 2 ^ e.toNat : Nat) : ℚ) = num / den / 2 ^ e := by
  rw [zpow_eq_div two_ne_zero]
  push_cast
  field_simp

theorem scaled_lt_iff (num : Nat) (hDen : 0 < den) (e : ℤ) :
    num * 2 ^ (-e).toNat < den * 2 ^ e.toNat ↔ (num / den : ℚ) < 2 ^ e := by
  have hScaled : (0 : ℚ) < ((den * 2 ^ e.toNat : Nat) : ℚ) := by positivity
  have hPower : (0 : ℚ) < 2 ^ e := by positivity
  rw [← Nat.cast_lt (α := ℚ), ← div_lt_one hScaled, scaled_quotient, div_lt_one hPower]

theorem two_zpow_le_iff (hq : 0 < q) {e : ℤ} : 2 ^ e ≤ q ↔ e ≤ Int.log 2 q :=
  Int.zpow_le_iff_le_log one_lt_two hq

theorem lt_two_zpow_iff (hq : 0 < q) {e : ℤ} : q < 2 ^ e ↔ Int.log 2 q < e :=
  Int.lt_zpow_iff_log_lt one_lt_two hq

/-- The difference of the binary lengths is the logarithm of the quotient or
one more. -/
theorem log_bounds (hNum : 0 < num) (hDen : 0 < den) :
    (num.log2 : ℤ) - den.log2 - 1 ≤ Int.log 2 (num / den : ℚ) ∧
      Int.log 2 (num / den : ℚ) ≤ (num.log2 : ℤ) - den.log2 := by
  have hQuotient : (0 : ℚ) < num / den := by positivity
  have hLeast : ∀ {n : Nat}, 0 < n → (2 : ℚ) ^ (n.log2 : ℤ) ≤ n := by
    intro n hn
    exact_mod_cast Nat.log2_self_le hn.ne'
  have hMost : ∀ n : Nat, (n : ℚ) < 2 ^ ((n.log2 : ℤ) + 1) := by
    intro n
    exact_mod_cast Nat.lt_log2_self (n := n)
  constructor
  · rw [← two_zpow_le_iff hQuotient]
    calc
      (2 : ℚ) ^ ((num.log2 : ℤ) - den.log2 - 1)
          = 2 ^ (num.log2 : ℤ) / 2 ^ ((den.log2 : ℤ) + 1) := by
            rw [← zpow_sub₀ two_ne_zero, sub_sub]
      _ ≤ num / den := by
            gcongr
            · exact hLeast hNum
            · exact (hMost den).le
  · rw [← Int.lt_add_one_iff, ← lt_two_zpow_iff hQuotient]
    calc
      (num / den : ℚ) < 2 ^ ((num.log2 : ℤ) + 1) / 2 ^ (den.log2 : ℤ) :=
            div_lt_div₀ (hMost num) (hLeast hDen) (by positivity) (by positivity)
      _ = 2 ^ ((num.log2 : ℤ) - den.log2 + 1) := by
            rw [← zpow_sub₀ two_ne_zero, add_sub_right_comm]

theorem floorLog2_eq_log (hNum : 0 < num) (hDen : 0 < den) :
    floorLog2 num den = Int.log 2 (num / den : ℚ) := by
  obtain ⟨hLow, hHigh⟩ := log_bounds hNum hDen
  have hQuotient : (0 : ℚ) < num / den := by positivity
  have hTest := scaled_lt_iff num hDen ((num.log2 : ℤ) - den.log2)
  have hLog := lt_two_zpow_iff hQuotient (e := (num.log2 : ℤ) - den.log2)
  simp only [floorLog2, Nat.pow_eq, hTest, hLog]
  split_ifs <;> omega

/-- The integer nearest to a non-negative number, a half to the even one. -/
def roundEven (q : ℚ) : Nat :=
  if 2 * (q - ⌊q⌋₊) < 1 then ⌊q⌋₊
  else if 1 < 2 * (q - ⌊q⌋₊) then ⌊q⌋₊ + 1
  else if ⌊q⌋₊ % 2 = 0 then ⌊q⌋₊
  else ⌊q⌋₊ + 1

theorem roundHalfEven_eq_roundEven (num : Nat) (hDen : 0 < den) :
    roundHalfEven num den = roundEven (num / den) := by
  have hFloor : ⌊(num / den : ℚ)⌋₊ = num / den := Nat.floor_div_eq_div ..
  have hSplit : (num : ℚ) = den * (num / den : Nat) + (num % den : Nat) := by
    exact_mod_cast (Nat.div_add_mod num den).symm
  have hFraction : 2 * ((num / den : ℚ) - (num / den : Nat)) = ((2 * (num % den) : Nat) : ℚ) / den := by
    rw [eq_div_iff (by positivity)]
    push_cast
    field_simp
    linarith
  have hDenom : (0 : ℚ) < den := by positivity
  simp only [roundHalfEven, roundEven, hFloor, hFraction, div_lt_one hDenom, one_lt_div hDenom,
    Nat.cast_lt]

theorem floor_le_roundEven (q : ℚ) : ⌊q⌋₊ ≤ roundEven q := by
  unfold roundEven
  split_ifs <;> omega

theorem roundEven_le_floor_succ (q : ℚ) : roundEven q ≤ ⌊q⌋₊ + 1 := by
  unfold roundEven
  split_ifs <;> omega

@[simp] theorem roundEven_natCast (n : Nat) : roundEven n = n := by
  simp [roundEven]

/-- Rounding does not pass an integer. -/
theorem le_roundEven {n : Nat} (h : (n : ℚ) ≤ q) : n ≤ roundEven q :=
  (Nat.le_floor h).trans (floor_le_roundEven q)

theorem roundEven_le {n : Nat} (hq : 0 ≤ q) (h : q ≤ n) : roundEven q ≤ n := by
  rcases h.lt_or_eq with hLess | rfl
  · exact (roundEven_le_floor_succ q).trans ((Nat.floor_lt hq).mpr hLess)
  · exact (roundEven_natCast n).le

theorem roundEven_eq_zero (h : 2 * q < 1) : roundEven q = 0 := by
  have hFloor : ⌊q⌋₊ = 0 := Nat.floor_eq_zero.mpr (by linarith)
  simp [roundEven, hFloor, h]

namespace Binary64

/-- The shape that makes the representation of a number unique: the significand
has at most 53 bits, and fewer only at the least exponent. -/
def Canonical : Binary64 → Prop
  | finite significand exponent =>
    significand < 2 ^ 53 ∧ -1074 ≤ exponent ∧ exponent ≤ 971 ∧
      (2 ^ 52 ≤ significand ∨ exponent = -1074)
  | infinite => True

/-- The exponent at which a number has 53 bits in front of the point, unless
that is below the least one. -/
def exponentFor (q : ℚ) : ℤ := max (Int.log 2 q - 52) (-1074)

/-- A significand of 2^53 is written with the next exponent. -/
def carry (significand : Nat) (exponent : ℤ) : Binary64 :=
  let carried := significand = 2 ^ 53
  let significand := if carried then 2 ^ 52 else significand
  let exponent := if carried then exponent + 1 else exponent
  if exponent > 971 then infinite else finite significand exponent

/-- The representation nearest to a non-negative number; of two equally near
ones that with the even significand. -/
def nearest (q : ℚ) : Binary64 :=
  if q = 0 then zero else carry (roundEven (q / 2 ^ exponentFor q)) (exponentFor q)

/-- Rounding a quotient depends on its value alone. -/
theorem ofRatio_eq_nearest (num : Nat) (hDen : 0 < den) :
    ofRatio num den = nearest (num / den) := by
  rcases Nat.eq_zero_or_pos num with rfl | hNum
  · simp [ofRatio, nearest]
  · have hNonzero : (num / den : ℚ) ≠ 0 := by positivity
    have hRound : ∀ e : ℤ, roundHalfEven (num * 2 ^ (-e).toNat) (den * 2 ^ e.toNat) =
        roundEven (num / den / 2 ^ e) := by
      intro e
      rw [roundHalfEven_eq_roundEven _ (by positivity), scaled_quotient]
    simp only [ofRatio, nearest, if_neg hNum.ne', if_neg hNonzero, carry, exponentFor,
      floorLog2_eq_log hNum hDen, Nat.pow_eq, hRound]
    rfl

theorem nearest_of_large (h : 2 ^ (1024 : ℤ) ≤ q) : nearest q = infinite := by
  have hPositive : 0 < q := lt_of_lt_of_le (by positivity) h
  have hLog := (two_zpow_le_iff hPositive).mp h
  have hExponent : 972 ≤ exponentFor q := by
    unfold exponentFor
    omega
  rw [nearest, if_neg hPositive.ne']
  simp only [carry]
  split_ifs <;> first | rfl | omega

theorem nearest_of_small (hPositive : 0 < q) (h : 2 * q < 2 ^ (-1074 : ℤ)) : nearest q = zero := by
  have hBelow : q < 2 ^ (-1074 : ℤ) := by linarith
  have hLog := (lt_two_zpow_iff hPositive).mp hBelow
  have hExponent : exponentFor q = -1074 := by
    unfold exponentFor
    omega
  have hHalf : (2 : ℚ) * (q / 2 ^ (-1074 : ℤ)) < 1 := by
    rw [← mul_div_assoc]
    exact (div_lt_one (by positivity)).mpr h
  rw [nearest, if_neg hPositive.ne', hExponent, roundEven_eq_zero hHalf]
  rfl

/-- The scaled number that is rounded to the significand. -/
theorem scaled_bounds (hPositive : 0 < q) :
    q / 2 ^ exponentFor q < 2 ^ 53 ∧
      (exponentFor q = -1074 ∨ 2 ^ 52 ≤ q / 2 ^ exponentFor q) := by
  have hPower : (0 : ℚ) < 2 ^ exponentFor q := by positivity
  refine ⟨?_, ?_⟩
  · rw [div_lt_iff₀ hPower, ← zpow_natCast, ← zpow_add₀ two_ne_zero]
    have hLog : Int.log 2 q < (53 : Nat) + exponentFor q := by
      unfold exponentFor
      omega
    exact (lt_two_zpow_iff hPositive).mpr hLog
  · rcases eq_or_ne (exponentFor q) (-1074) with hLeast | hAbove
    · exact .inl hLeast
    · refine .inr ?_
      rw [le_div_iff₀ hPower, ← zpow_natCast, ← zpow_add₀ two_ne_zero]
      have hLog : (52 : Nat) + exponentFor q ≤ Int.log 2 q := by
        unfold exponentFor at hAbove ⊢
        omega
      exact (two_zpow_le_iff hPositive).mpr hLog

theorem canonical_nearest (hq : 0 ≤ q) : (nearest q).Canonical := by
  rcases hq.eq_or_lt with rfl | hPositive
  · simp [nearest, zero, Canonical]
  · obtain ⟨hHigh, hLow⟩ := scaled_bounds hPositive
    have hMost : roundEven (q / 2 ^ exponentFor q) ≤ 2 ^ 53 :=
      roundEven_le (by positivity) (by exact_mod_cast hHigh.le)
    have hLeast : exponentFor q = -1074 ∨ 2 ^ 52 ≤ roundEven (q / 2 ^ exponentFor q) :=
      hLow.imp_right fun h => le_roundEven (by exact_mod_cast h)
    have hExponent : -1074 ≤ exponentFor q := le_max_right ..
    rw [nearest, if_neg hPositive.ne']
    generalize roundEven (q / 2 ^ exponentFor q) = significand at *
    generalize exponentFor q = exponent at *
    simp only [carry]
    split_ifs <;> simp only [Canonical] <;> omega

/-- A number that has a representation is not changed by rounding. -/
theorem nearest_of_canonical {significand : Nat} {exponent : ℤ}
    (h : (finite significand exponent).Canonical) :
    nearest (significand * 2 ^ exponent) = finite significand exponent := by
  obtain ⟨hMost, hLeast, hGreatest, hNormal⟩ := h
  rcases Nat.eq_zero_or_pos significand with rfl | hPositive
  · have hExponent : exponent = -1074 := hNormal.resolve_left (by norm_num)
    simp [nearest, zero, hExponent]
  · have hValue : (0 : ℚ) < significand * 2 ^ exponent := by positivity
    have hLogHigh : Int.log 2 (significand * 2 ^ exponent : ℚ) < (53 : Nat) + exponent := by
      rw [← lt_two_zpow_iff hValue, zpow_add₀ two_ne_zero, zpow_natCast]
      gcongr
      exact_mod_cast hMost
    have hLogLow : 2 ^ 52 ≤ significand →
        (52 : Nat) + exponent ≤ Int.log 2 (significand * 2 ^ exponent : ℚ) := by
      intro hLow
      rw [← two_zpow_le_iff hValue, zpow_add₀ two_ne_zero, zpow_natCast]
      gcongr
      exact_mod_cast hLow
    have hExponent : exponentFor (significand * 2 ^ exponent) = exponent := by
      unfold exponentFor
      omega
    have hSame : (significand * 2 ^ exponent / 2 ^ exponent : ℚ) = significand :=
      mul_div_cancel_right₀ _ (by positivity)
    rw [nearest, if_neg hValue.ne', hExponent, hSame, roundEven_natCast]
    simp only [carry, if_neg hMost.ne, if_neg (not_lt.mpr hGreatest)]

theorem two_pow_le_ten_pow : 2 ^ 1024 ≤ 10 ^ 401 := by
  decide +kernel

theorem two_mul_two_pow_le_ten_pow : 2 * 2 ^ 1074 ≤ 10 ^ 401 := by
  decide +kernel

/-- The digits of a number so small that its digit count shows it. -/
theorem lt_ten_pow (digits : Nat) : digits < 10 ^ (digits.log2 / 3 + 1) := by
  calc
    digits < 2 ^ (digits.log2 + 1) := Nat.lt_log2_self
    _ ≤ 2 ^ (3 * (digits.log2 / 3 + 1)) := Nat.pow_le_pow_right (by decide) (by omega)
    _ = 8 ^ (digits.log2 / 3 + 1) := by rw [Nat.pow_mul]
    _ ≤ 10 ^ (digits.log2 / 3 + 1) := Nat.pow_le_pow_left (by decide) _

/-- Reading a decimal number rounds its value; the shortcuts for large and
small exponents make no difference. -/
theorem ofDecimal_eq_nearest (digits : Nat) (scale : ℤ) :
    ofDecimal digits scale = nearest (digits * 10 ^ scale) := by
  rcases Nat.eq_zero_or_pos digits with rfl | hDigits
  · simp [ofDecimal, nearest]
  unfold ofDecimal
  rw [if_neg hDigits.ne']
  split
  · -- one digit is enough to be beyond the greatest number
    rename_i hLarge
    refine (nearest_of_large ?_).symm
    calc
      (2 : ℚ) ^ (1024 : ℤ) ≤ 1 * 10 ^ (401 : ℤ) := by
          rw [one_mul]
          exact_mod_cast two_pow_le_ten_pow
      _ ≤ digits * 10 ^ scale := by
          gcongr
          · exact_mod_cast hDigits
          · norm_num
          · omega
  split
  · -- all digits there are do not reach half of the least number
    rename_i hSmall
    refine (nearest_of_small (by positivity) ?_).symm
    have hLess : (digits * 10 ^ scale : ℚ) < 10 ^ (-401 : ℤ) := by
      calc
        (digits * 10 ^ scale : ℚ) < 10 ^ ((digits.log2 / 3 + 1 : Nat) : ℤ) * 10 ^ scale := by
            gcongr
            exact_mod_cast lt_ten_pow digits
        _ = 10 ^ (((digits.log2 / 3 + 1 : Nat) : ℤ) + scale) := by rw [zpow_add₀ (by norm_num)]
        _ ≤ 10 ^ (-401 : ℤ) := by
            gcongr
            · norm_num
            · omega
    calc
      2 * (digits * 10 ^ scale : ℚ) < 2 * 10 ^ (-401 : ℤ) := by gcongr
      _ ≤ 2 ^ (-1074 : ℤ) := by
          rw [zpow_neg, zpow_neg, ← div_eq_mul_inv, div_le_iff₀ (by positivity), inv_mul_eq_div,
            le_div_iff₀ (by positivity)]
          exact_mod_cast two_mul_two_pow_le_ten_pow
  · have hTen : (10 : ℚ) ≠ 0 := by norm_num
    simp only [Nat.pow_eq]
    rw [ofRatio_eq_nearest _ (Nat.pow_pos (by decide)), zpow_eq_div hTen]
    push_cast
    rw [mul_div_assoc]

theorem canonical_ofDecimal (digits : Nat) (scale : ℤ) : (ofDecimal digits scale).Canonical := by
  rw [ofDecimal_eq_nearest]
  exact canonical_nearest (by positivity)

end Binary64

end Scriptlet.Number
