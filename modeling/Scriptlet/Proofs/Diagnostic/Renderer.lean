import Scriptlet.Diagnostic.ParseError
import Scriptlet.Diagnostic.Renderer

namespace Scriptlet

open Text

theorem ParseError.pointers_diagnostic (error : ParseError) :
    error.diagnostic.pointers = [⟨error.span, ""⟩] := rfl

namespace Renderer

variable {m : Type → Type} [Monad m] {linesOf : String → m (List String)} {renderer other : Renderer}
  {file : String} {diagnostic : Diagnostic} {pointer : Pointer}

theorem lookup_addSource (renderer : Renderer) (file : String) (text : List Char) :
    (renderer.addSource file text).recorded.lookup file = some (splitLines text) := by
  rw [addSource, lookup_record, if_pos rfl]

/-- A diagnostic for one place is shown after a look at the file of that place. -/
theorem render_single [LawfulMonad m] (linesOf : String → m (List String)) (renderer : Renderer)
    (h : diagnostic.pointers = [pointer]) :
    renderer.render linesOf diagnostic = do
      let renderer ← renderer.remember linesOf pointer.span.file
      return (renderer.layout diagnostic, renderer) := by
  simp [render, h]

/-- What is shown depends on the colours and on the lines recorded for the files
that are pointed at, and on nothing else that a renderer has seen. -/
theorem layout_congr (hColor : renderer.color = other.color)
    (hLines : ∀ pointer ∈ diagnostic.pointers,
      renderer.recorded.lookup pointer.span.file = other.recorded.lookup pointer.span.file) :
    renderer.layout diagnostic = other.layout diagnostic := by
  obtain ⟨color, recorded⟩ := renderer
  obtain ⟨_, recorded'⟩ := other
  obtain rfl : color = _ := hColor
  have hRows : ∀ pointer ∈ diagnostic.pointers,
      pointerRows ⟨color, recorded⟩ pointer = pointerRows ⟨color, recorded'⟩ pointer := by
    intro pointer hPointer
    have hLine : line? ⟨color, recorded⟩ pointer.span.file pointer.span.startLine =
        line? ⟨color, recorded'⟩ pointer.span.file pointer.span.startLine := by
      rw [line?, line?, hLines pointer hPointer]
    rw [pointerRows, excerpt, hLine]
    rfl
  have hAll : diagnostic.pointers.flatMap (pointerRows ⟨color, recorded⟩) =
      diagnostic.pointers.flatMap (pointerRows ⟨color, recorded'⟩) :=
    congrArg List.flatten (List.map_congr_left hRows)
  rw [layout, rows, hAll]
  rfl

/-! Renderers of files that do not change. -/

section Unchanging

variable {linesOf : String → Id (List String)}

/-- The lines that a renderer shows for a file: those it has recorded, or else
those that the file has. -/
def linesFor (linesOf : String → Id (List String)) (renderer : Renderer) (file : String) : List String :=
  (renderer.recorded.lookup file).getD (linesOf file).run

theorem color_remember (linesOf : String → Id (List String)) (renderer : Renderer) (file : String) :
    (renderer.remember linesOf file).run.color = renderer.color := by
  rw [remember]
  cases renderer.recorded.lookup file <;> rfl

/-- A look at a file settles the lines that are shown for it. -/
theorem lookup_remember (linesOf : String → Id (List String)) (renderer : Renderer) (file other : String) :
    (renderer.remember linesOf file).run.recorded.lookup other =
      if other = file then some (renderer.linesFor linesOf file) else renderer.recorded.lookup other := by
  cases hLookup : renderer.recorded.lookup file with
  | some shown =>
      rw [remember_known linesOf renderer file shown hLookup, linesFor, hLookup]
      by_cases hSame : other = file
      · rw [if_pos hSame, hSame]
        exact hLookup
      · rw [if_neg hSame]
        rfl
  | none =>
      rw [remember_fresh linesOf renderer file hLookup, linesFor, hLookup]
      exact lookup_record renderer file other (linesOf file).run

/-- It does not change what is shown for any file. -/
theorem linesFor_remember (linesOf : String → Id (List String)) (renderer : Renderer) (file other : String) :
    (renderer.remember linesOf file).run.linesFor linesOf other = renderer.linesFor linesOf other := by
  rw [linesFor, lookup_remember]
  by_cases hSame : other = file
  · rw [if_pos hSame, hSame]
    rfl
  · rw [if_neg hSame]
    rfl

/-- The renderer after a look at all files that are pointed at. -/
def rememberAll (linesOf : String → Id (List String)) (renderer : Renderer) (pointers : List Pointer) : Renderer :=
  (pointers.foldlM (fun (r : Renderer) pointer => r.remember linesOf pointer.span.file) renderer).run

theorem rememberAll_cons (linesOf : String → Id (List String)) (renderer : Renderer) (pointer : Pointer)
    (pointers : List Pointer) :
    renderer.rememberAll linesOf (pointer :: pointers) =
      (renderer.remember linesOf pointer.span.file).run.rememberAll linesOf pointers := rfl

theorem color_rememberAll (linesOf : String → Id (List String)) (renderer : Renderer) (pointers : List Pointer) :
    (renderer.rememberAll linesOf pointers).color = renderer.color := by
  induction pointers generalizing renderer with
  | nil => rfl
  | cons pointer pointers ih => rw [rememberAll_cons, ih, color_remember]

theorem lookup_rememberAll (linesOf : String → Id (List String)) (renderer : Renderer) (pointers : List Pointer)
    (file : String) :
    (renderer.rememberAll linesOf pointers).recorded.lookup file =
      if pointers.any fun pointer => pointer.span.file = file then some (renderer.linesFor linesOf file)
      else renderer.recorded.lookup file := by
  induction pointers generalizing renderer with
  | nil => rfl
  | cons pointer pointers ih =>
      rw [rememberAll_cons, ih, linesFor_remember, lookup_remember, List.any_cons]
      by_cases hSame : pointer.span.file = file
      · subst hSame
        simp
      · simp [hSame, Ne.symm hSame]

theorem lookup_pointers {pointers : List Pointer} (shown : String → List String) (h : pointer ∈ pointers) :
    (pointers.map fun p => (p.span.file, shown p.span.file)).lookup pointer.span.file =
      some (shown pointer.span.file) := by
  induction pointers with
  | nil => cases h
  | cons p pointers ih =>
      rw [List.map_cons, List.lookup_cons]
      by_cases hSame : pointer.span.file = p.span.file
      · simp only [hSame, beq_self_eq_true]
      · rw [beq_false_of_ne hSame]
        rcases List.mem_cons.mp h with rfl | hLater
        · exact absurd rfl hSame
        · exact ih hLater

/-- A diagnostic is shown with the lines that are shown for the files it points
at, and with no others. -/
theorem render_run (linesOf : String → Id (List String)) (renderer : Renderer) (diagnostic : Diagnostic) :
    (renderer.render linesOf diagnostic).run =
      (layout ⟨renderer.color, diagnostic.pointers.map fun pointer =>
          (pointer.span.file, renderer.linesFor linesOf pointer.span.file)⟩ diagnostic,
        renderer.rememberAll linesOf diagnostic.pointers) := by
  have hLayout : (renderer.rememberAll linesOf diagnostic.pointers).layout diagnostic =
      layout ⟨renderer.color, diagnostic.pointers.map fun pointer =>
        (pointer.span.file, renderer.linesFor linesOf pointer.span.file)⟩ diagnostic := by
    apply layout_congr
    · exact color_rememberAll linesOf renderer diagnostic.pointers
    · intro pointer hPointer
      have hSome : diagnostic.pointers.any fun p => p.span.file = pointer.span.file :=
        List.any_eq_true.mpr ⟨pointer, hPointer, decide_eq_true rfl⟩
      rw [lookup_rememberAll, if_pos hSome, lookup_pointers _ hPointer]
  rw [← hLayout]
  rfl

/-- All lines that are recorded are those that the files have. -/
def Honest (linesOf : String → Id (List String)) (renderer : Renderer) : Prop :=
  ∀ file lines, renderer.recorded.lookup file = some lines → lines = linesOf file

theorem honest_new (linesOf : String → Id (List String)) (color : Bool) :
    (Renderer.new color).Honest linesOf := by
  intro file lines hLookup
  cases hLookup

/-- An honest renderer shows the lines that the files have. -/
theorem Honest.linesFor_eq (h : renderer.Honest linesOf) (file : String) :
    renderer.linesFor linesOf file = linesOf file := by
  rw [linesFor]
  cases hLookup : renderer.recorded.lookup file with
  | some shown => exact h file shown hLookup
  | none => rfl

theorem Honest.rememberAll (h : renderer.Honest linesOf) (pointers : List Pointer) :
    (renderer.rememberAll linesOf pointers).Honest linesOf := by
  intro file shown hShown
  rw [lookup_rememberAll, h.linesFor_eq] at hShown
  split at hShown
  · exact (Option.some.inj hShown).symm
  · exact h file shown hShown

/-- An honest renderer shows a diagnostic for one place in a file as if the text
of the file had just been registered, and stays honest. -/
theorem Honest.render (h : renderer.Honest linesOf) (hPointers : diagnostic.pointers = [pointer])
    {text : List Char} (hText : linesOf pointer.span.file = splitLines text) :
    ∃ looked : Renderer, renderer.render linesOf diagnostic =
        pure (((Renderer.new renderer.color).addSource pointer.span.file text).layout diagnostic, looked) ∧
      looked.Honest linesOf ∧ looked.color = renderer.color := by
  refine ⟨renderer.rememberAll linesOf diagnostic.pointers, ?_, h.rememberAll _,
    color_rememberAll linesOf renderer _⟩
  have hLayout : layout ⟨renderer.color, diagnostic.pointers.map fun pointer =>
        (pointer.span.file, renderer.linesFor linesOf pointer.span.file)⟩ diagnostic =
      ((Renderer.new renderer.color).addSource pointer.span.file text).layout diagnostic := by
    apply layout_congr
    · rfl
    · intro other hOther
      rw [lookup_pointers _ hOther, h.linesFor_eq]
      rw [hPointers, List.mem_singleton] at hOther
      rw [hOther, lookup_addSource, hText]
  rw [← hLayout]
  exact render_run linesOf renderer diagnostic

end Unchanging

end Renderer

end Scriptlet
