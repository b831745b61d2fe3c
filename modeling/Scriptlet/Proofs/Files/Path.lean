import Mathlib.Data.String.Basic
import Scriptlet.Files.Path

namespace Scriptlet

/-! Names and steps as texts. -/

namespace FileName

theorem eq_of_text {name other : FileName} (h : name.text = other.text) : name = other := by
  cases name
  cases other
  cases h
  rfl

theorem ofText?_text (name : FileName) : FileName.ofText? name.text = some name := by
  rw [ofText?, dif_pos name.valid]

end FileName

namespace Step

/-- A step is written as one piece between slashes. -/
theorem isPiece_text (step : Step) : step.text.toList ≠ [] ∧ '/' ∉ step.text.toList := by
  cases step with
  | up => decide
  | down name =>
      have hValid := name.valid
      simp only [isFileName, Bool.and_eq_true, decide_eq_true_eq, Bool.not_eq_true',
        List.contains_eq_mem, decide_eq_false_iff_not] at hValid
      obtain ⟨⟨⟨hSome, _⟩, _⟩, hSlash⟩ := hValid
      exact ⟨fun hNil => hSome (String.toList_eq_nil_iff.mp hNil), hSlash⟩

theorem ofText?_text (step : Step) : ofText? step.text = some step := by
  cases step with
  | up => rfl
  | down name =>
      have hName : name.text ≠ ".." := by
        intro hBad
        have hValid := name.valid
        rw [hBad] at hValid
        exact absurd hValid (by decide)
      rw [text, ofText?, if_neg hName, FileName.ofText?_text]
      rfl

end Step

namespace Path

/-! The text of a path read back. -/

theorem pieces_cons {c : Char} {rest piece : List Char} {later : List (List Char)} (hSlash : c ≠ '/')
    (h : pieces rest = piece :: later) : pieces (c :: rest) = (c :: piece) :: later := by
  rw [pieces, if_neg hSlash, h]

/-- A piece without a slash is in front of the pieces after the next slash. -/
theorem pieces_append {piece : List Char} (h : '/' ∉ piece) (rest : List Char) :
    pieces (piece ++ '/' :: rest) = piece :: pieces rest := by
  induction piece with
  | nil => rfl
  | cons c piece ih =>
      rw [List.mem_cons, not_or] at h
      exact pieces_cons (Ne.symm h.1) (ih h.2)

theorem pieces_single {piece : List Char} (h : '/' ∉ piece) : pieces piece = [piece] := by
  induction piece with
  | nil => rfl
  | cons c piece ih =>
      rw [List.mem_cons, not_or] at h
      exact pieces_cons (Ne.symm h.1) (ih h.2)

theorem pieces_intercalate {parts : List (List Char)} (h : ∀ part ∈ parts, '/' ∉ part)
    (hSome : parts ≠ []) : pieces (['/'].intercalate parts) = parts := by
  induction parts with
  | nil => exact absurd rfl hSome
  | cons part parts ih =>
      have hPart := h part List.mem_cons_self
      cases parts with
      | nil => rw [List.intercalate_singleton, pieces_single hPart]
      | cons next parts =>
          have hLater := ih (fun other hOther => h other (List.mem_cons_of_mem part hOther)) (by simp)
          rw [List.intercalate_cons_cons, List.append_assoc, List.singleton_append, pieces_append hPart,
            hLater]

/-- The way of a path, without what stands for its start. -/
def wayText (steps : List Step) : List Char :=
  ['/'].intercalate (steps.map fun step => step.text.toList)

theorem toList_text {path : Path} (h : path.anchor ≠ .workingDirectory) :
    path.text.toList = path.anchor.text.toList ++ wayText path.steps := by
  rw [text, if_neg fun hBad => h hBad.1, String.toList_append, String.toList_intercalate, List.map_map]
  rfl

/-- A way does not begin with a slash, which would belong to the start. -/
theorem head_wayText (steps : List Step) : ∀ c ∈ (wayText steps).head?, c ≠ '/' := by
  intro c hc hSlash
  subst hSlash
  cases steps with
  | nil => cases hc
  | cons step steps =>
      obtain ⟨hSome, hNone⟩ := step.isPiece_text
      obtain ⟨x, others, hText⟩ := List.exists_cons_of_ne_nil hSome
      rw [hText] at hNone
      cases steps <;> simp_all [wayText]

theorem pieces_wayText {steps : List Step} (hSome : steps ≠ []) :
    pieces (wayText steps) = steps.map fun step => step.text.toList := by
  apply pieces_intercalate
  · intro part hPart
    obtain ⟨step, _, rfl⟩ := List.mem_map.mp hPart
    exact step.isPiece_text.2
  · simpa using hSome

theorem steps_wayText (steps : List Step) :
    (pieces (wayText steps)).filterMap (fun piece => Step.ofText? (String.ofList piece)) = steps := by
  by_cases hSome : steps = []
  · subst hSome
    rfl
  · have hBack : (fun piece => Step.ofText? (String.ofList piece)) ∘
        (fun step : Step => step.text.toList) = some := by
      funext step
      simp [Step.ofText?_text]
    rw [pieces_wayText hSome, List.filterMap_map, hBack, List.filterMap_some]

/-- The slashes that stand for the start of a path make empty pieces, which lead
nowhere. -/
theorem text_of_start {path : Path} (h : path.anchor ≠ .workingDirectory) :
    anchorOf path.text.toList = path.anchor ∧ ∃ slashes, (∀ piece ∈ slashes, piece = []) ∧
      pieces path.text.toList = slashes ++ pieces (wayText path.steps) := by
  have hText := toList_text h
  have hHead := head_wayText path.steps
  rw [hText]
  generalize wayText path.steps = way at hHead
  cases hAnchor : path.anchor with
  | workingDirectory => exact absurd hAnchor h
  | root =>
      refine ⟨?_, [[]], by simp, rfl⟩
      cases way with
      | nil => rfl
      | cons c rest => simp [Anchor.text, anchorOf, hHead c rfl]
  | doubleRoot =>
      refine ⟨?_, [[], []], by simp, rfl⟩
      cases way with
      | nil => rfl
      | cons c rest => simp [Anchor.text, anchorOf, hHead c rfl]

/-- The text of a path that starts at the root leads back to the same path. -/
theorem ofText_text {path : Path} (h : path.anchor ≠ .workingDirectory) : ofText path.text = path := by
  obtain ⟨hAnchor, slashes, hSlashes, hPieces⟩ := text_of_start h
  have hNowhere : slashes.filterMap (fun piece => Step.ofText? (String.ofList piece)) = [] := by
    rw [List.filterMap_eq_nil_iff]
    intro piece hPiece
    rw [hSlashes piece hPiece]
    rfl
  rw [ofText, hAnchor, hPieces, List.filterMap_append, hNowhere, List.nil_append, steps_wayText]

/-- A path that ends with a name may lead to a file. -/
theorem demandsDirectory_text {path : Path} {name : FileName} (h : path.anchor ≠ .workingDirectory)
    (hLast : path.steps.getLast? = some (.down name)) : demandsDirectory path.text = false := by
  obtain ⟨_, slashes, _, hPieces⟩ := text_of_start h
  have hSome : path.steps ≠ [] := by
    intro hNil
    rw [hNil] at hLast
    cases hLast
  have hPiece : (pieces path.text.toList).getLast? = some name.text.toList := by
    rw [hPieces, pieces_wayText hSome, List.getLast?_append, List.getLast?_map, hLast]
    rfl
  have hEmpty := (Step.down name).isPiece_text.1
  have hDot : name.text.toList ≠ ['.'] := by
    intro hBad
    have hValid := name.valid
    rw [← String.ofList_toList (s := name.text), hBad] at hValid
    exact absurd hValid (by decide)
  have hEmptyName : name.text.toList ≠ [] := hEmpty
  simp [demandsDirectory, hPiece, hEmptyName, hDot]

end Path

namespace Location

/-! The order of locations. -/

/-- Names are compared from the root on, text by text, and a location comes before
what is below it. -/
theorem le_iff (a b : Location) :
    le a b = true ↔ a = b ∨ List.Lex (· < ·) (a.map FileName.text) (b.map FileName.text) := by
  induction a generalizing b with
  | nil => cases b <;> simp [le]
  | cons x a ih =>
      cases b with
      | nil => simp [le]
      | cons y b =>
          rw [List.map_cons, List.map_cons, List.cons_lex_cons_iff, le, List.cons.injEq]
          by_cases hSame : x = y
          · subst hSame
            simp [ih]
          · have hText : x.text ≠ y.text := fun hText => hSame (FileName.eq_of_text hText)
            simp [hSame, hText]

theorem le_total (a b : Location) : (le a b || le b a) = true := by
  induction a generalizing b with
  | nil => simp [le]
  | cons x a ih =>
      cases b with
      | nil => simp [le]
      | cons y b =>
          by_cases hSame : x = y
          · simpa [le, hSame] using ih b
          · have hText : x.text ≠ y.text := fun hText => hSame (FileName.eq_of_text hText)
            rcases lt_or_gt_of_ne hText with hLess | hLess
            · simp [le, hSame, hLess]
            · simp [le, Ne.symm hSame, hLess]

theorem le_trans (a b c : Location) (hFirst : le a b = true) (hSecond : le b c = true) :
    le a c = true := by
  induction a generalizing b c with
  | nil => rfl
  | cons x a ih =>
      cases b with
      | nil => cases hFirst
      | cons y b =>
          cases c with
          | nil => cases hSecond
          | cons z c =>
              simp only [le] at hFirst hSecond ⊢
              by_cases hXY : x = y
              · subst hXY
                by_cases hXZ : x = z
                · subst hXZ
                  simp only [if_true] at hFirst hSecond ⊢
                  exact ih b c hFirst hSecond
                · simp only [if_neg hXZ] at hSecond ⊢
                  exact hSecond
              · rw [if_neg hXY, decide_eq_true_eq] at hFirst
                by_cases hYZ : y = z
                · subst hYZ
                  simp [hXY, hFirst]
                · rw [if_neg hYZ, decide_eq_true_eq] at hSecond
                  have hLess := lt_trans hFirst hSecond
                  have hXZ : x ≠ z := by
                    rintro rfl
                    exact lt_irrefl _ hLess
                  simp [hXZ, hLess]

end Location

end Scriptlet
