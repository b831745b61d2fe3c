import Scriptlet.Proofs.Parsing.Step
import Scriptlet.Text.Escape

namespace Scriptlet.Text

/-- A character that is in no control sequence. -/
def isOutside (c : Char) : Bool :=
  c != escape && c != '[' && !isParameter c && !isFinalLetter c

@[simp] theorem isOutside_blank : isOutside ' ' = true := rfl

@[simp] theorem isOutside_colon : isOutside ':' = true := rfl

@[simp] theorem isOutside_lineFeed : isOutside '\n' = true := rfl

/-- A whole control sequence: an escape, a bracket, parameters and a letter. -/
def IsSequence (text : List Char) : Prop :=
  ∃ parameters letter, text = escape :: '[' :: (parameters ++ [letter]) ∧
    (∀ c ∈ parameters, isParameter c = true) ∧ isFinalLetter letter = true

variable {c : Char} {front back code text : List Char}

namespace Erasure

/-- The same state behind a text that is kept already. -/
def onto (state : Erasure) (base : List Char) : Erasure :=
  { state with kept := state.kept ++ base }

@[simp] theorem release_onto (state : Erasure) (base : List Char) :
    (state.onto base).release = state.release ++ base :=
  (List.append_assoc state.held state.kept base).symm

theorem restart_onto (state : Erasure) (base : List Char) (c : Char) :
    (state.onto base).restart c = (state.restart c).onto base := by
  rw [restart, restart, release_onto]
  split <;> rfl

/-- What is kept already makes no difference to what follows. -/
theorem push_onto (state : Erasure) (base : List Char) (c : Char) :
    (state.onto base).push c = (state.push c).onto base := by
  have hRestart := state.restart_onto base c
  obtain ⟨kept, held⟩ := state
  match held with
  | [] => exact hRestart
  | [first] =>
      by_cases hBracket : c = '['
      · simp only [push, onto, if_pos hBracket]
      · simpa only [push, onto, if_neg hBracket] using hRestart
  | first :: second :: rest =>
      by_cases hParameter : isParameter c = true
      · simp only [push, onto, if_pos hParameter]
      · by_cases hLetter : isFinalLetter c = true
        · simp only [push, onto, if_neg hParameter, if_pos hLetter]
        · simpa only [push, onto, if_neg hParameter, if_neg hLetter] using hRestart

theorem foldl_push_onto (text : List Char) (state : Erasure) (base : List Char) :
    text.foldl push (state.onto base) = (text.foldl push state).onto base := by
  induction text generalizing state with
  | nil => rfl
  | cons c text ih => rw [List.foldl_cons, push_onto, ih, List.foldl_cons]

theorem push_of_restart (hBracket : c ≠ '[') (hParameter : isParameter c = false)
    (hLetter : isFinalLetter c = false) (state : Erasure) : state.push c = state.restart c := by
  obtain ⟨kept, held⟩ := state
  match held with
  | [] => rfl
  | [first] => simp only [push, if_neg hBracket]
  | first :: second :: rest => simp only [push, hParameter, hLetter, Bool.false_eq_true, if_false]

/-- A character from outside settles that what is held is no sequence. -/
theorem push_outside (h : isOutside c = true) (state : Erasure) :
    state.push c = (⟨[c], []⟩ : Erasure).onto state.release := by
  simp only [isOutside, Bool.and_eq_true, bne_iff_ne, Bool.not_eq_true'] at h
  obtain ⟨⟨⟨hEscape, hBracket⟩, hParameter⟩, hLetter⟩ := h
  rw [push_of_restart hBracket hParameter hLetter, restart, if_neg hEscape]
  rfl

/-- So does an escape, which may begin a sequence itself. -/
theorem push_escape (state : Erasure) :
    state.push escape = (⟨[], [escape]⟩ : Erasure).onto state.release :=
  push_of_restart (by decide) rfl rfl state

/-- Once there is a bracket, parameters are held, and a letter ends the sequence. -/
theorem push_begun (kept parameters : List Char) (c : Char) :
    push ⟨kept, parameters ++ ['[', escape]⟩ c =
      if isParameter c then ⟨kept, c :: parameters ++ ['[', escape]⟩
      else if isFinalLetter c then ⟨kept, []⟩
      else restart ⟨kept, parameters ++ ['[', escape]⟩ c := by
  match parameters with
  | [] => rfl
  | [_] => rfl
  | _ :: _ :: _ => rfl

theorem foldl_push_parameters (h : ∀ c ∈ text, isParameter c = true) (kept parameters : List Char) :
    text.foldl push ⟨kept, parameters ++ ['[', escape]⟩ =
      ⟨kept, text.reverse ++ parameters ++ ['[', escape]⟩ := by
  induction text generalizing parameters with
  | nil => rfl
  | cons c text ih =>
      rw [List.forall_mem_cons] at h
      rw [List.foldl_cons, push_begun, if_pos h.1, ih h.2]
      simp

theorem foldl_push_plain (h : escape ∉ text) (kept : List Char) :
    text.foldl push ⟨kept, []⟩ = ⟨text.reverse ++ kept, []⟩ := by
  induction text generalizing kept with
  | nil => rfl
  | cons c text ih =>
      rw [List.mem_cons, not_or] at h
      have hPush : push ⟨kept, []⟩ c = ⟨c :: kept, []⟩ := if_neg (Ne.symm h.1)
      rw [List.foldl_cons, hPush, ih h.2]
      simp

end Erasure

open Erasure

theorem isParameter_eq_false_of_isFinalLetter (h : isFinalLetter c = true) :
    isParameter c = false := by
  simp only [isFinalLetter, Bool.or_eq_true, Bool.and_eq_true, decide_eq_true_eq, Char.le_def,
    UInt32.le_iff_toNat_le] at h
  have hLetter : '9'.val.toNat < c.val.toNat := by
    rcases h with ⟨hLow, _⟩ | ⟨hLow, _⟩ <;> exact Nat.lt_of_lt_of_le (by decide) hLow
  simp only [isParameter, Bool.or_eq_false_iff, Bool.and_eq_false_iff, decide_eq_false_iff_not,
    Char.le_def, UInt32.le_iff_toNat_le, Nat.not_le]
  refine ⟨⟨?_, ?_⟩, .inr hLetter⟩
  · rintro rfl
    revert h
    decide
  · rintro rfl
    revert h
    decide

/-- A text without escapes stays as it is. -/
theorem eraseEscapes_of_not_mem (h : escape ∉ text) : eraseEscapes text = text := by
  rw [eraseEscapes, foldl_push_plain h]
  simp [release]

/-- A character from outside divides a text into two that are erased from on
their own. -/
theorem eraseEscapes_cons_outside (h : isOutside c = true) (front back : List Char) :
    eraseEscapes (front ++ c :: back) = eraseEscapes front ++ c :: eraseEscapes back := by
  have hStart : (⟨[c], []⟩ : Erasure) = (⟨[], []⟩ : Erasure).onto [c] := rfl
  rw [eraseEscapes, List.foldl_append, List.foldl_cons, push_outside h, foldl_push_onto, hStart,
    foldl_push_onto, release_onto, release_onto]
  simp [eraseEscapes]

theorem eraseEscapes_append_of_last (h : ∀ c ∈ front.getLast?, isOutside c = true) (back : List Char) :
    eraseEscapes (front ++ back) = eraseEscapes front ++ eraseEscapes back := by
  rcases List.eq_nil_or_concat front with rfl | ⟨front, c, rfl⟩
  · rfl
  · have hOutside : isOutside c = true := h c (by simp)
    rw [List.concat_eq_append, List.append_assoc, List.singleton_append,
      eraseEscapes_cons_outside hOutside, eraseEscapes_cons_outside hOutside, List.append_assoc]
    rfl

theorem eraseEscapes_append_of_head (front : List Char) (h : ∀ c ∈ back.head?, isOutside c = true) :
    eraseEscapes (front ++ back) = eraseEscapes front ++ eraseEscapes back := by
  cases back with
  | nil => simp [eraseEscapes, release]
  | cons c back =>
      have hAlone := eraseEscapes_cons_outside (h c rfl) [] back
      rw [List.nil_append] at hAlone
      rw [eraseEscapes_cons_outside (h c rfl), hAlone]
      rfl

/-- A sequence is erased and what is held in front of it kept. -/
theorem foldl_push_sequence (h : IsSequence code) (state : Erasure) :
    code.foldl push state = (⟨[], []⟩ : Erasure).onto state.release := by
  obtain ⟨parameters, letter, rfl, hParameters, hLetter⟩ := h
  have hHeld : parameters.foldl push ⟨[], ['[', escape]⟩ = ⟨[], parameters.reverse ++ ['[', escape]⟩ := by
    simpa using foldl_push_parameters hParameters [] []
  have hErased : push ⟨[], parameters.reverse ++ ['[', escape]⟩ letter = ⟨[], []⟩ := by
    rw [push_begun, isParameter_eq_false_of_isFinalLetter hLetter, if_neg Bool.false_ne_true,
      if_pos hLetter]
  have hBracket : push ⟨[], [escape]⟩ '[' = ⟨[], ['[', escape]⟩ := rfl
  rw [List.foldl_cons, push_escape, foldl_push_onto, List.foldl_cons, hBracket, List.foldl_append,
    hHeld, List.foldl_cons, hErased]
  rfl

/-- A sequence can be left out wherever it stands, and what is on its two sides
does not become one. -/
theorem eraseEscapes_sequence (h : IsSequence code) (front back : List Char) :
    eraseEscapes (front ++ code ++ back) = eraseEscapes front ++ eraseEscapes back := by
  rw [eraseEscapes, List.foldl_append, List.foldl_append, foldl_push_sequence h, foldl_push_onto,
    release_onto]
  simp [eraseEscapes]

/-! What is erased. -/

/-- What is left of a text without its sequences. They are found from the front on,
and one that comes about only because another one is taken out stays. -/
inductive Erased : List Char → List Char → Prop where
  | nil : Erased [] []
  | sequence {code rest left : List Char} (hCode : IsSequence code) (later : Erased rest left) :
      Erased (code ++ rest) left
  | keep {c : Char} {rest left : List Char}
      (hNone : ∀ code tail, c :: rest = code ++ tail → ¬ IsSequence code)
      (later : Erased rest left) : Erased (c :: rest) (c :: left)

/-- What is held after an escape alone is given up where no bracket follows. -/
theorem foldl_push_unbracketed (h : ∀ c ∈ text.head?, c ≠ '[') :
    (text.foldl push ⟨[], [escape]⟩).release = (text.foldl push ⟨[escape], []⟩).release := by
  cases text with
  | nil => rfl
  | cons c text =>
      have hPush : push ⟨[], [escape]⟩ c = restart ⟨[], [escape]⟩ c := if_neg (h c rfl)
      rw [List.foldl_cons, hPush, List.foldl_cons]
      rfl

/-- So is what is held after a bracket where no letter follows the parameters. -/
theorem foldl_push_unfinished (hParameters : ∀ c ∈ front, isParameter c = true)
    (hBack : ∀ c ∈ back.head?, isParameter c = false ∧ isFinalLetter c = false) :
    ((front ++ back).foldl push ⟨[], ['[', escape]⟩).release =
      ((front ++ back).foldl push ⟨['[', escape], []⟩).release := by
  have hPlain : escape ∉ front := fun hMem => absurd (hParameters escape hMem) (by decide)
  have hHeld : front.foldl push ⟨[], ['[', escape]⟩ = ⟨[], front.reverse ++ ['[', escape]⟩ := by
    simpa using foldl_push_parameters hParameters [] []
  rw [List.foldl_append, List.foldl_append, hHeld, foldl_push_plain hPlain]
  cases back with
  | nil => simp [release]
  | cons c back =>
      obtain ⟨hParameter, hLetter⟩ := hBack c rfl
      have hPush : push ⟨[], front.reverse ++ ['[', escape]⟩ c =
          push ⟨front.reverse ++ ['[', escape], []⟩ c := by
        rw [push_begun, hParameter, hLetter]
        simp [push, restart, release]
      rw [List.foldl_cons, List.foldl_cons, hPush]

/-- A character at which no sequence begins is kept. -/
theorem eraseEscapes_keep (hNone : ∀ code tail, c :: back = code ++ tail → ¬ IsSequence code) :
    eraseEscapes (c :: back) = c :: eraseEscapes back := by
  have hStart : (⟨[c], []⟩ : Erasure) = (⟨[], []⟩ : Erasure).onto [c] := rfl
  -- What is held and given up later might as well have been kept at once.
  have hSame : (back.foldl push (push ⟨[], []⟩ c)).release = (back.foldl push ⟨[c], []⟩).release := by
    by_cases hEscape : c = escape
    · subst hEscape
      by_cases hBracket : ∀ d ∈ back.head?, d ≠ '['
      · exact foldl_push_unbracketed hBracket
      · obtain ⟨rest, rfl⟩ : ∃ rest, back = '[' :: rest := by
          cases back with
          | nil => exact absurd (fun d hd => by cases hd) hBracket
          | cons d rest => exact ⟨rest, by simpa using hBracket⟩
        obtain ⟨parameters, tail, rfl, hParameters, hTail⟩ := exists_run isParameter rest
        refine foldl_push_unfinished hParameters fun d hd => ⟨hTail d hd, ?_⟩
        refine Bool.eq_false_iff.mpr fun hLetter => ?_
        obtain ⟨more, rfl⟩ : ∃ more, tail = d :: more := List.head?_eq_some_iff.mp hd
        exact hNone (escape :: '[' :: (parameters ++ [d])) more (by simp)
          ⟨parameters, d, rfl, hParameters, hLetter⟩
    · have hPush : push ⟨[], []⟩ c = ⟨[c], []⟩ := if_neg hEscape
      rw [hPush]
  rw [eraseEscapes, List.foldl_cons, hSame, hStart, foldl_push_onto, release_onto]
  simp [eraseEscapes]

/-- All sequences are erased, and nothing else is. -/
theorem erased_iff {left : List Char} : Erased text left ↔ left = eraseEscapes text := by
  constructor
  · intro h
    induction h with
    | nil => rfl
    | sequence hCode later ih =>
        rw [ih]
        exact (eraseEscapes_sequence hCode [] _).symm
    | keep hNone later ih => rw [ih, eraseEscapes_keep hNone]
  · rintro rfl
    -- The text behind a sequence, or behind the first character, is shorter.
    induction hLength : text.length using Nat.strongRecOn generalizing text with
    | ind length ih =>
        subst hLength
        by_cases hCode : ∃ code tail, text = code ++ tail ∧ IsSequence code
        · obtain ⟨code, tail, rfl, hCode⟩ := hCode
          have hShorter : tail.length < (code ++ tail).length := by
            obtain ⟨parameters, letter, rfl, -, -⟩ := hCode
            simp only [List.length_append, List.length_cons]
            omega
          have hErased := eraseEscapes_sequence hCode [] tail
          rw [List.nil_append] at hErased
          rw [hErased]
          exact .sequence hCode (ih _ hShorter rfl)
        · cases text with
          | nil => exact .nil
          | cons c rest =>
              have hNone : ∀ code tail, c :: rest = code ++ tail → ¬ IsSequence code :=
                fun code tail hText hIs => hCode ⟨code, tail, hText, hIs⟩
              rw [eraseEscapes_keep hNone]
              exact .keep hNone (ih _ (Nat.lt_succ_self _) rfl)

end Scriptlet.Text
