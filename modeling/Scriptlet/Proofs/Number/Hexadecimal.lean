import Scriptlet.Proofs.Number.Digits
import Scriptlet.Proofs.Text.Clean

namespace Scriptlet.Number

/-- The value of one hexadecimal digit in lower case. -/
def hexDigitValue (c : Char) : Nat :=
  if c.isDigit then c.toNat - '0'.toNat else c.toNat - 'a'.toNat + 10

/-- The value of hexadecimal digits, the most significant digit first. -/
def hexValue (digits : List Char) : Nat :=
  digits.foldl (fun total c => 16 * total + hexDigitValue c) 0

theorem hexDigitValue_digitChar : ∀ n < 16, hexDigitValue (Nat.digitChar n) = n := by
  decide

theorem hexValue_append (front back : List Char) :
    hexValue (front ++ back) = hexValue front * 16 ^ back.length + hexValue back := by
  rw [hexValue, List.foldl_append, foldl_positional]
  rfl

theorem hexValue_digitChar {n : Nat} (h : n < 16) : hexValue [Nat.digitChar n] = n := by
  simp [hexValue, hexDigitValue_digitChar n h]

theorem hexValue_toDigits (n : Nat) : hexValue (Nat.toDigits 16 n) = n := by
  induction n using Nat.strongRecOn with
  | _ n ih =>
      by_cases hSmall : n < 16
      · rw [Nat.toDigits_of_lt_base hSmall, hexValue_digitChar hSmall]
      · rw [Nat.toDigits_of_base_le (by decide) (Nat.le_of_not_lt hSmall), hexValue_append,
          ih (n / 16) (by omega), hexValue_digitChar (Nat.mod_lt n (by decide))]
        simp only [List.length_singleton]
        omega

/-- Splitting digits off a number keeps them in its last places. -/
theorem hexValue_hexInto (width n : Nat) (text : List Char) :
    (hexInto width n text).length = width + text.length ∧
      hexValue (hexInto width n text) = n % 16 ^ width * 16 ^ text.length + hexValue text := by
  induction width generalizing n text with
  | zero => simp [hexInto, Nat.mod_one]
  | succ width ih =>
      obtain ⟨hLength, hValue⟩ := ih (n / 16) (Nat.digitChar (n % 16) :: text)
      have hDigit : hexValue (Nat.digitChar (n % 16) :: text) =
          n % 16 * 16 ^ text.length + hexValue text := by
        rw [← List.singleton_append, hexValue_append, hexValue_digitChar (Nat.mod_lt n (by decide))]
      have hSplit : n % 16 ^ (width + 1) = n % 16 + 16 * (n / 16 % 16 ^ width) := by
        rw [Nat.pow_succ', Nat.mod_mul]
      refine ⟨?_, ?_⟩
      · rw [hexInto, hLength, List.length_cons]
        omega
      · rw [hexInto, hValue, hDigit, hSplit, List.length_cons]
        ring

/-- Writing a number in blocks gives its hexadecimal digits. -/
theorem hexValue_hexBlocks (n : Nat) (text : List Char) :
    hexValue (hexBlocks n text) = n * 16 ^ text.length + hexValue text := by
  fun_induction hexBlocks n text with
  | case1 n text hSmall => rw [hexValue_append, hexValue_toDigits]
  | case2 n text hLarge ih =>
      obtain ⟨hLength, hValue⟩ := hexValue_hexInto hexBlockLength (n % hexBlockSize) text
      have hSize : hexBlockSize = 16 ^ hexBlockLength := rfl
      rw [ih, hLength, hValue, ← hSize, Nat.mod_mod, Nat.pow_add, ← hSize]
      conv => rhs; rw [← Nat.div_add_mod n hexBlockSize]
      ring

/-- No two numbers are written alike, in whichever base they are. -/
theorem integerText_injective : Function.Injective integerText := by
  intro m n h
  have hDecimal (k : Nat) : (decimalText k).toList = Nat.toDigits 10 k := String.toList_ofList
  have hMixed (k l : Nat) : decimalText k ≠ String.ofList ('0' :: 'x' :: hexBlocks l []) := by
    intro hSame
    have hChars : Nat.toDigits 10 k = '0' :: 'x' :: hexBlocks l [] := by
      rw [← hDecimal, hSame, String.toList_ofList]
    have hMark : 'x' ∈ Nat.toDigits 10 k := by simp [hChars]
    exact absurd (Nat.isDigit_of_mem_toDigits (by decide) (by decide) hMark) (by decide)
  unfold integerText at h
  split at h <;> split at h
  · have hChars := congrArg String.toList h
    rw [hDecimal, hDecimal] at hChars
    rw [← Nat.ofDigitChars_ten_toDigits (n := m), hChars, Nat.ofDigitChars_ten_toDigits]
  · exact absurd h (hMixed m n)
  · exact absurd h.symm (hMixed n m)
  · have hChars := congrArg String.toList h
    simp only [String.toList_ofList, List.cons.injEq, true_and] at hChars
    have hValue := congrArg hexValue hChars
    simpa [hexValue_hexBlocks] using hValue

section Clean

open Text

theorem le_digitChar : ∀ n < 16, 32 ≤ (Nat.digitChar n).toNat := by
  decide

theorem clean_toDigits (n : Nat) : Clean (Nat.toDigits 16 n) := by
  induction n using Nat.strongRecOn with
  | _ n ih =>
      by_cases hSmall : n < 16
      · rw [Nat.toDigits_of_lt_base hSmall]
        exact clean_cons.mpr ⟨le_digitChar n hSmall, clean_nil⟩
      · rw [Nat.toDigits_of_base_le (by decide) (Nat.le_of_not_lt hSmall)]
        have hLast := le_digitChar (n % 16) (Nat.mod_lt n (by decide))
        exact clean_append.mpr ⟨ih (n / 16) (by omega), clean_cons.mpr ⟨hLast, clean_nil⟩⟩

theorem clean_hexInto (width n : Nat) {text : List Char} (h : Clean text) :
    Clean (hexInto width n text) := by
  induction width generalizing n text with
  | zero => exact h
  | succ width ih => exact ih _ (clean_cons.mpr ⟨le_digitChar _ (Nat.mod_lt n (by decide)), h⟩)

theorem clean_hexBlocks (n : Nat) {text : List Char} (h : Clean text) : Clean (hexBlocks n text) := by
  fun_induction hexBlocks n text with
  | case1 n text hSmall => exact clean_append.mpr ⟨clean_toDigits n, h⟩
  | case2 n text hLarge ih => exact ih (clean_hexInto _ _ h)

/-- A number is written without control characters. -/
theorem clean_integerText (n : Nat) : Clean (integerText n).toList := by
  unfold integerText decimalText
  split
  · rw [String.toList_ofList]
    intro c hc
    have hDigit := Nat.isDigit_of_mem_toDigits (by decide) (by decide) hc
    exact Nat.le_trans (by decide) (Char.isDigit_iff_toNat.mp hDigit).1
  · rw [String.toList_ofList, clean_cons, clean_cons]
    exact ⟨by decide, by decide, clean_hexBlocks n clean_nil⟩

end Clean

end Scriptlet.Number
