import Scriptlet.Proofs.Entry

namespace Scriptlet

open Grammar

namespace Grammar

variable {d k : Nat} {ts : List Token} {text mid rest : List Char} {labels : Labels}

/-- After tokens comes no blank, since each of them takes the blanks behind it along. -/
theorem Written.noBlank (h : Written ts text rest) (hText : NoBlank text) : NoBlank rest := by
  induction h with
  | nil => exact hText
  | cons first _ ih => exact ih first.noBlank

/-! A production goes wrong right behind the tokens that it has read or, inside an
open string, at the end of the text. -/

theorem Stuck.place_or_end (h : Stuck d k ts mid rest labels) : rest = mid ∨ rest = [] := by
  cases h with
  | operand | close => exact .inl rfl
  | quote => exact .inr rfl

theorem InitializerStuck.place_or_end (h : InitializerStuck d k ts mid rest labels) :
    rest = mid ∨ rest = [] := by
  cases h with
  | start | semicolon => exact .inl rfl
  | expression h => exact h.place_or_end

theorem DeclarationStuck.place_or_end (h : DeclarationStuck d k ts mid rest labels) :
    rest = mid ∨ rest = [] := by
  cases h with
  | keyword | name | type => exact .inl rfl
  | initializer _ h => exact h.place_or_end

theorem StatementStuck.place_or_end (h : StatementStuck d k ts mid rest labels) :
    rest = mid ∨ rest = [] := by
  cases h with
  | start => exact .inl rfl
  | expression h => exact h.place_or_end

end Grammar

theorem SourceStuck.place_or_end {limit k : Nat} {filename : String} {entry : Entry} {ts : List Token}
    {mid rest : List Char} {labels : Labels}
    (h : SourceStuck limit filename entry k ts mid rest labels) : rest = mid ∨ rest = [] := by
  cases h with
  | trailing => exact .inl rfl
  | program _ _ h => exact h.place_or_end
  | statement h => exact h.place_or_end
  | expression h => exact h.place_or_end
  | declaration h => exact h.place_or_end

theorem isBlank_eq_false_iff {x : Char} : isBlank x = false ↔ x ≠ ' ' ∧ x ≠ '\t' ∧ x ≠ '\n' := by
  simp only [isBlank, Bool.or_eq_false_iff, beq_eq_false_iff_ne, and_assoc]
  exact and_congr_right fun _ => and_comm

/-- The hint about blanks at the beginning is given for errors at a blank only. -/
theorem ParseError.hints_of_visible {text : List Char} {offset : Nat}
    (h : ∀ x ∈ text[offset]?, isBlank x = false) : hints text offset = [] := by
  cases offset with
  | succ offset => rfl
  | zero =>
      cases text with
      | nil => rfl
      | cons x text =>
          obtain ⟨hSpace, hTab, hFeed⟩ := isBlank_eq_false_iff.mp (h x rfl)
          simp [hints, hSpace, hTab, hFeed]

namespace Source

variable {source : Source} {entry : Entry} {rest : List Char} {limit : Nat}

/-- The character at a place is the first of those that follow it. -/
theorem getElem?_before (h : rest <:+ source.text) :
    source.text[(source.before rest).offset]? = rest.head? := by
  obtain ⟨front, hText⟩ := h
  have hOffset : (source.before rest).offset = front.length := by
    simp [offset_before, ← hText]
  rw [hOffset, ← hText, List.getElem?_append_right (Nat.le_refl _), Nat.sub_self,
    List.head?_eq_getElem?]

/-- An error is reported where the rest of the text begins with no blank. -/
theorem exists_place_of_rejected {error : ParseError}
    (hError : source.parseWithin limit entry = .error (.rejected error)) :
    ∃ rest expected message, NoBlank rest ∧ rest <:+ source.text ∧
      error = .place (source.before rest).offset expected source.text source.filename message := by
  obtain ⟨lead, text, hText, _, hNoBlank, hOutcome⟩ := exists_parseOutcome hError
  have hSuffix : text <:+ source.text := ⟨lead, hText.symm⟩
  cases hOutcome with
  | rejected hStuck hWritten hRest =>
      refine ⟨_, _, _, ?_, (hRest.trans hWritten.suffix).trans hSuffix, rfl⟩
      rcases hStuck.place_or_end with rfl | rfl
      · exact hWritten.noBlank hNoBlank
      · exact noBlank_nil
  | tooDeep _ hBefore _ =>
      exact ⟨_, _, _, hBefore.noBlank hNoBlank, hBefore.suffix.trans hSuffix, rfl⟩

end Source

/-- No error of a whole source, that of too deep nesting included, is reported at a
blank: it is at the end or at another character, and no hint about blanks at the
beginning comes with it. -/
theorem error_not_at_blank (limit : Nat) (source : Source) (entry : Entry) (error : ParseError)
    (hError : source.parseWithin limit entry = .error (.rejected error)) :
    error.offset ≤ source.text.length ∧
      (error.offset = source.text.length ∨
        ∃ x, source.text[error.offset]? = some x ∧ x ≠ ' ' ∧ x ≠ '\t' ∧ x ≠ '\n') ∧
      error.diagnostic.notes = [] := by
  obtain ⟨rest, expected, message, hRest, hSuffix, rfl⟩ := Source.exists_place_of_rejected hError
  have hNext := Source.getElem?_before hSuffix
  have hVisible : ∀ x ∈ source.text[(source.before rest).offset]?, isBlank x = false := by
    rw [hNext]
    exact hRest
  refine ⟨?_, ?_, ParseError.hints_of_visible hVisible⟩
  · show (source.before rest).offset ≤ _
    rw [Source.offset_before]
    exact Nat.sub_le _ _
  · cases rest with
    | nil => exact .inl Source.offset_before
    | cons x rest => exact .inr ⟨x, hNext, isBlank_eq_false_iff.mp (hRest x rfl)⟩

/-- The second operand is missed behind the blanks, not at one of them. -/
theorem error_not_at_blank_operand :
    ∃ error : ParseError,
      Source.parseWithin Parser.nestingLimit ⟨"f", " 12 +\n)".toList⟩ .expression =
        .error (.rejected error) ∧
      error.offset = 6 ∧ error.offset ≤ 7 ∧
      (error.offset = 7 ∨
        ∃ x, " 12 +\n)".toList[error.offset]? = some x ∧ x ≠ ' ' ∧ x ≠ '\t' ∧ x ≠ '\n') ∧
      error.diagnostic.notes = [] := by
  obtain ⟨error, hError, hOffset⟩ : ∃ error : ParseError,
      Source.parseWithin Parser.nestingLimit ⟨"f", " 12 +\n)".toList⟩ .expression =
        .error (.rejected error) ∧ error.offset = 6 := ⟨_, rfl, rfl⟩
  exact ⟨error, hError, hOffset, error_not_at_blank _ _ _ error hError⟩

end Scriptlet
