import Scriptlet.Proofs.Number.Hexadecimal
import Scriptlet.Text.Quoted

namespace Scriptlet.Text

open Number (hexValue hexValue_append hexValue_digitChar)

/-- The character that the front of quoted text stands for, and what is behind
it. -/
def unescape : List Char → Option (Char × List Char)
  | [] => none
  | c :: rest =>
    if c = '\\' then
      match rest with
      | [] => none
      | kind :: rest =>
        if kind = 't' then some ('\t', rest)
        else if kind = 'n' then some ('\n', rest)
        else if kind = 'r' then some ('\r', rest)
        else if kind = 'x' then some (Char.ofNat (hexValue (rest.take 2)), rest.drop 2)
        else if kind = 'u' then some (Char.ofNat (hexValue (rest.take 4)), rest.drop 4)
        else if kind = 'U' then some (Char.ofNat (hexValue (rest.take 8)), rest.drop 8)
        else some (kind, rest)
    else some (c, rest)

theorem hexDigit_eq_digitChar : ∀ n < 16, hexDigit n = Nat.digitChar n := by
  decide

theorem hexDigits_spec (width value : Nat) :
    (hexDigits width value).length = width ∧
      hexValue (hexDigits width value) = value % 16 ^ width := by
  induction width generalizing value with
  | zero => simp [hexDigits, hexValue, Nat.mod_one]
  | succ width ih =>
      obtain ⟨hLength, hValue⟩ := ih (value / 16)
      have hLast : value % 16 < 16 := Nat.mod_lt value (by decide)
      refine ⟨by simp [hexDigits, hLength], ?_⟩
      rw [hexDigits, hexValue_append, hValue, hexDigit_eq_digitChar _ hLast,
        hexValue_digitChar hLast, Nat.pow_succ', Nat.mod_mul]
      simp only [List.length_singleton]
      omega

theorem unescape_hexDigits {c : Char} {width : Nat} (h : c.toNat < 16 ^ width) (rest : List Char) :
    some (Char.ofNat (hexValue ((hexDigits width c.toNat ++ rest).take width)),
      (hexDigits width c.toNat ++ rest).drop width) = some (c, rest) := by
  obtain ⟨hLength, hValue⟩ := hexDigits_spec width c.toNat
  rw [List.take_left' hLength, List.drop_left' hLength, hValue, Nat.mod_eq_of_lt h, Char.ofNat_toNat]

/-- A character is read back from its number. -/
theorem unescape_numericEscape (c : Char) (rest : List Char) :
    unescape (numericEscape c ++ rest) = some (c, rest) := by
  unfold numericEscape
  split_ifs with hByte hPlane
  · exact unescape_hexDigits hByte rest
  · exact unescape_hexDigits hPlane rest
  · have hBound : c.toNat < 16 ^ 8 := c.val.toNat_lt
    exact unescape_hexDigits hBound rest

/-- The marks that text is put between. -/
def IsMark (mark : Char) : Prop := mark = '"' ∨ mark = '\''

theorem isMark_quoteMark (text : List Char) : IsMark (quoteMark text) := by
  unfold quoteMark
  split
  · exact .inl rfl
  · exact .inr rfl

variable {mark : Char}

/-- Every character is read back from the way in which it is written. -/
theorem unescape_escapeChar (hMark : IsMark mark) (c : Char) (rest : List Char) :
    unescape (escapeChar mark c ++ rest) = some (c, rest) := by
  unfold escapeChar
  split_ifs with hSpecial hTab hFeed hReturn hPrintable
  · rcases hSpecial with rfl | rfl
    · rcases hMark with rfl | rfl <;> rfl
    · rfl
  · rw [hTab]
    rfl
  · rw [hFeed]
    rfl
  · rw [hReturn]
    rfl
  · simp only [not_or] at hSpecial
    simp [unescape, hSpecial.2]
  · exact unescape_numericEscape c rest

theorem escapeChar_cancel (hMark : IsMark mark) {c d : Char} {rest others : List Char}
    (h : escapeChar mark c ++ rest = escapeChar mark d ++ others) : c = d ∧ rest = others := by
  have hRead := unescape_escapeChar hMark c rest
  rw [h, unescape_escapeChar hMark] at hRead
  simpa [eq_comm] using hRead

theorem escapeChar_ne_nil (hMark : IsMark mark) (c : Char) : escapeChar mark c ≠ [] := by
  intro hNil
  have hRead := unescape_escapeChar hMark c []
  rw [hNil] at hRead
  cases hRead

theorem flatMap_escapeChar_injective (hMark : IsMark mark) :
    Function.Injective (List.flatMap (escapeChar mark)) := by
  intro text
  induction text with
  | nil =>
      intro other h
      cases other with
      | nil => rfl
      | cons d other =>
          have hNil := (List.append_eq_nil_iff.mp h.symm).1
          exact absurd hNil (escapeChar_ne_nil hMark d)
  | cons c text ih =>
      intro other h
      cases other with
      | nil => exact absurd (List.append_eq_nil_iff.mp h).1 (escapeChar_ne_nil hMark c)
      | cons d other =>
          obtain ⟨rfl, hRest⟩ := escapeChar_cancel hMark h
          rw [ih hRest]

/-- No two texts are quoted alike. -/
theorem quoted_injective : Function.Injective quoted := by
  intro text other h
  have hChars := String.ofList_injective h
  simp only [quotedChars, List.cons_append, List.cons.injEq] at hChars
  obtain ⟨hMark, hInner⟩ := hChars
  rw [hMark] at hInner
  have hFlat := List.append_cancel_right hInner
  exact String.toList_injective (flatMap_escapeChar_injective (isMark_quoteMark _) hFlat)

/-- Printable characters begin behind the control characters. -/
theorem le_of_isPrintable {c : Char} (h : isPrintable c = true) : 32 ≤ c.toNat := by
  have hFirst : printableRanges = ⟨0x20, 0x7e⟩ :: printableRanges.tail := rfl
  rw [isPrintable, hFirst, CodeRange.covers] at h
  split at h
  · cases h
  · rename_i hLess
    exact Nat.le_of_not_lt hLess

theorem clean_hexDigits (width value : Nat) : Clean (hexDigits width value) := by
  have hDigit : ∀ n < 16, 32 ≤ (hexDigit n).toNat := by decide
  induction width generalizing value with
  | zero => exact clean_nil
  | succ width ih =>
      have hLast := hDigit _ (Nat.mod_lt value (by decide))
      exact clean_append.mpr ⟨ih (value / 16), clean_cons.mpr ⟨hLast, clean_nil⟩⟩

theorem clean_numericEscape (c : Char) : Clean (numericEscape c) := by
  unfold numericEscape
  split_ifs <;>
    · rw [clean_cons, clean_cons]
      exact ⟨by decide, by decide, clean_hexDigits _ _⟩

theorem clean_escapeChar (hMark : IsMark mark) (c : Char) : Clean (escapeChar mark c) := by
  have hPair : ∀ {kind : Char}, 32 ≤ kind.toNat → Clean ['\\', kind] := fun hKind =>
    clean_cons.mpr ⟨by decide, clean_cons.mpr ⟨hKind, clean_nil⟩⟩
  unfold escapeChar
  split_ifs with hSpecial hTab hFeed hReturn hPrintable
  · rcases hSpecial with rfl | rfl
    · rcases hMark with rfl | rfl <;> exact hPair (by decide)
    · exact hPair (by decide)
  · exact hPair (by decide)
  · exact hPair (by decide)
  · exact hPair (by decide)
  · exact clean_cons.mpr ⟨le_of_isPrintable hPrintable, clean_nil⟩
  · exact clean_numericEscape c

/-- Quoted text is in one line, whatever the text contains. -/
theorem clean_quoted (text : String) : Clean (quoted text).toList := by
  have hMark := isMark_quoteMark text.toList
  have hMarkCode : 32 ≤ (quoteMark text.toList).toNat := by
    rcases hMark with hMark | hMark <;> rw [hMark] <;> decide
  have hInner : Clean (text.toList.flatMap (escapeChar (quoteMark text.toList))) := by
    intro c hc
    obtain ⟨inner, _, hInner⟩ := List.mem_flatMap.mp hc
    exact clean_escapeChar hMark inner c hInner
  rw [quoted, String.toList_ofList, quotedChars, clean_append, clean_cons]
  exact ⟨⟨hMarkCode, hInner⟩, clean_cons.mpr ⟨hMarkCode, clean_nil⟩⟩

end Scriptlet.Text
