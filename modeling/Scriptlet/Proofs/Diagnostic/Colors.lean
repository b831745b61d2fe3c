import Scriptlet.Proofs.Diagnostic.Renderer
import Scriptlet.Proofs.Text.Escape

namespace Scriptlet

namespace Text

/-- What is left of a text without its control sequences. -/
def uncolored (text : String) : List Char := eraseEscapes text.toList

/-- No control sequence lies across the seam of two texts. -/
def Apart (front back : String) : Prop :=
  uncolored (front ++ back) = uncolored front ++ uncolored back

variable {front back : String}

theorem apart_of_last (h : ∀ c ∈ front.toList.getLast?, isOutside c = true) (back : String) :
    Apart front back := by
  rw [Apart, uncolored, String.toList_append]
  exact eraseEscapes_append_of_last h back.toList

theorem apart_of_head (front : String) (h : ∀ c ∈ back.toList.head?, isOutside c = true) :
    Apart front back := by
  rw [Apart, uncolored, String.toList_append]
  exact eraseEscapes_append_of_head front.toList h

/-- Rows keep to themselves what they hold of a sequence. -/
theorem uncolored_intercalate (rows : List String) :
    uncolored ("\n".intercalate rows) = ['\n'].intercalate (rows.map uncolored) := by
  rw [uncolored, String.toList_intercalate]
  induction rows with
  | nil => rfl
  | cons row rows ih =>
      cases rows with
      | nil => simp [uncolored]
      | cons next rows =>
          simp only [List.map_cons, List.intercalate_cons_cons, List.append_assoc] at ih ⊢
          rw [← ih]
          exact eraseEscapes_cons_outside isOutside_lineFeed _ _

end Text

open Text

theorem Style.isSequence (style : Style) : IsSequence style.sequence.toList := by
  cases style
  · exact ⟨"1;31".toList, 'm', rfl, List.all_eq_true.mp rfl, rfl⟩
  · exact ⟨"1".toList, 'm', rfl, List.all_eq_true.mp rfl, rfl⟩
  · exact ⟨"1;34".toList, 'm', rfl, List.all_eq_true.mp rfl, rfl⟩
  · exact ⟨"0".toList, 'm', rfl, List.all_eq_true.mp rfl, rfl⟩

namespace Renderer

variable {renderer other : Renderer} {front back : String}

/-- A style leaves nothing behind, provided that no sequence lies across the ends
of what is in it. -/
theorem uncolored_styled (renderer : Renderer) (style : Style) {text : String}
    (hFront : Apart front (text ++ back)) (hBack : Apart text back) :
    uncolored (front ++ renderer.styled style text ++ back) =
      uncolored front ++ (uncolored text ++ uncolored back) := by
  cases hColor : renderer.color with
  | false =>
      have hPlain : front ++ renderer.styled style text ++ back = front ++ (text ++ back) := by
        simp [styled, Renderer.style, hColor, String.append_assoc]
      rw [hPlain, hFront, hBack]
  | true =>
      have hChars : (front ++ renderer.styled style text ++ back).toList =
          front.toList ++ style.sequence.toList ++
            (text.toList ++ Style.plain.sequence.toList ++ back.toList) := by
        simp [styled, Renderer.style, hColor]
      rw [uncolored, hChars, eraseEscapes_sequence style.isSequence,
        eraseEscapes_sequence Style.plain.isSequence]
      rfl

/-- What is marked at the end of a row leaves its text. -/
theorem uncolored_marked (renderer : Renderer) (style : Style) {text : String}
    (hFront : Apart front text) :
    uncolored (front ++ renderer.styled style text) = uncolored front ++ uncolored text := by
  have hEmpty : uncolored "" = [] := rfl
  have hWhole : Apart front (text ++ "") := by rwa [String.append_empty]
  have hBack : Apart text "" := apart_of_head text (by simp)
  have hMarked := renderer.uncolored_styled style hWhole hBack
  rwa [String.append_empty, hEmpty, List.append_nil] at hMarked

theorem uncolored_alone (renderer : Renderer) (style : Style) (text : String) :
    uncolored (renderer.styled style text) = uncolored text := by
  have hFront : Apart "" text := apart_of_last (by simp) text
  have hMarked := renderer.uncolored_marked style hFront
  rw [String.empty_append] at hMarked
  exact hMarked

/-! No row shows which colours it had. -/

variable (renderer other : Renderer)

theorem uncolored_headerRow (diagnostic : Diagnostic) :
    uncolored (renderer.headerRow diagnostic) = uncolored (other.headerRow diagnostic) := by
  have hHeader (renderer : Renderer) : uncolored (renderer.headerRow diagnostic) =
      uncolored ("error[" ++ diagnostic.code ++ "]") ++ uncolored (": " ++ diagnostic.message) := by
    rw [headerRow, renderer.uncolored_marked .bold (apart_of_head _ (by simp)), uncolored_alone]
  rw [hHeader, hHeader]

theorem uncolored_margin : uncolored renderer.margin = uncolored other.margin := by
  have hMargin (renderer : Renderer) : uncolored renderer.margin =
      uncolored "  " ++ uncolored "   |" :=
    renderer.uncolored_marked .frame (apart_of_last (by simp) _)
  rw [hMargin, hMargin]

/-- A row that begins with the frame, with a gap behind it. -/
theorem uncolored_framed (text rest : String) {gap : String}
    (hGap : gap.toList.head?.any isOutside = true) :
    uncolored ("  " ++ renderer.styled .frame text ++ gap ++ rest) =
      uncolored ("  " ++ other.styled .frame text ++ gap ++ rest) := by
  have hHead : ∀ c ∈ (gap ++ rest).toList.head?, isOutside c = true := by
    cases hChars : gap.toList with
    | nil => simp [hChars] at hGap
    | cons c more => simpa [hChars] using hGap
  have hFramed (renderer : Renderer) :
      uncolored ("  " ++ renderer.styled .frame text ++ gap ++ rest) =
        uncolored "  " ++ (uncolored text ++ uncolored (gap ++ rest)) := by
    rw [String.append_assoc]
    exact renderer.uncolored_styled .frame (apart_of_last (by simp) _) (apart_of_head text hHead)
  rw [hFramed, hFramed]

/-- A row with something marked in it, behind the frame and at least one blank. -/
theorem uncolored_below (count : Nat) (text : String) :
    uncolored (renderer.margin ++ " " ++ String.ofList (List.replicate count ' ') ++
        renderer.styled .error text) =
      uncolored (other.margin ++ " " ++ String.ofList (List.replicate count ' ') ++
        other.styled .error text) := by
  have hBlanks : ' ' :: List.replicate count ' ' = List.replicate count ' ' ++ [' '] :=
    List.replicate_succ'
  have hLast (renderer : Renderer) : ∀ c ∈ (renderer.margin ++ " " ++
      String.ofList (List.replicate count ' ')).toList.getLast?, isOutside c = true := by
    simp [hBlanks]
  rw [renderer.uncolored_marked .error (apart_of_last (hLast renderer) text),
    other.uncolored_marked .error (apart_of_last (hLast other) text)]
  congr 1
  exact renderer.uncolored_framed other "   |" _ rfl

theorem uncolored_excerpt (h : renderer.recorded = other.recorded) (span : Span) :
    (renderer.excerpt span).map uncolored = (other.excerpt span).map uncolored := by
  have hLine : renderer.line? span.file span.startLine = other.line? span.file span.startLine := by
    rw [line?, line?, h]
  rw [excerpt, excerpt, hLine]
  cases other.line? span.file span.startLine with
  | none => rfl
  | some line =>
      have hSource : uncolored (renderer.sourceRow span.startLine line) =
          uncolored (other.sourceRow span.startLine line) :=
        renderer.uncolored_framed other _ line rfl
      have hCarets : uncolored (renderer.caretRow span) = uncolored (other.caretRow span) :=
        renderer.uncolored_below other _ _
      simp only [List.map_cons, hSource, hCarets]

theorem uncolored_remark (message : String) :
    (renderer.remark message).map uncolored = (other.remark message).map uncolored := by
  have hRemark : uncolored (renderer.margin ++ "   " ++ renderer.styled .error message) =
      uncolored (other.margin ++ "   " ++ other.styled .error message) := by
    have hBlanks : "   " = " " ++ String.ofList (List.replicate 2 ' ') := rfl
    simpa only [hBlanks, String.append_assoc] using renderer.uncolored_below other 2 message
  unfold remark
  split
  · rfl
  · rw [List.map_singleton, List.map_singleton, hRemark]

theorem uncolored_pointerRows (h : renderer.recorded = other.recorded) (pointer : Pointer) :
    (renderer.pointerRows pointer).map uncolored = (other.pointerRows pointer).map uncolored := by
  have hGap : " ".toList.head?.any isOutside = true := rfl
  have hPlace := renderer.uncolored_framed other "-->" pointer.span.text hGap
  simp only [pointerRows, List.map_append, List.map_cons, hPlace, renderer.uncolored_margin other,
    renderer.uncolored_excerpt other h, renderer.uncolored_remark other]

theorem uncolored_rows (h : renderer.recorded = other.recorded) (diagnostic : Diagnostic) :
    (renderer.rows diagnostic).map uncolored = (other.rows diagnostic).map uncolored := by
  have hNotes : (diagnostic.notes.map renderer.noteRow).map uncolored =
      (diagnostic.notes.map other.noteRow).map uncolored := by
    rw [List.map_map, List.map_map]
    exact List.map_congr_left fun note _ => renderer.uncolored_framed other "=" note rfl
  simp only [rows, List.map_cons, List.map_append, List.map_flatMap, hNotes,
    renderer.uncolored_headerRow other, renderer.uncolored_pointerRows other h]

/-- Renderers that know the same lines show the same, but for the colours. -/
theorem uncolored_layout (h : renderer.recorded = other.recorded) (diagnostic : Diagnostic) :
    uncolored (renderer.layout diagnostic) = uncolored (other.layout diagnostic) := by
  rw [layout, layout, uncolored_intercalate, uncolored_intercalate, renderer.uncolored_rows other h]

/-- The same renderer, with or without colours. -/
def inColor (color : Bool) : Renderer := { renderer with color := color }

variable {m : Type → Type} [Monad m] [LawfulMonad m]

theorem remember_inColor (linesOf : String → m (List String)) (color : Bool) (file : String) :
    (renderer.inColor color).remember linesOf file =
      (fun looked => looked.inColor color) <$> renderer.remember linesOf file := by
  cases hLookup : renderer.recorded.lookup file with
  | some lines =>
      rw [remember_known linesOf renderer file lines hLookup, map_pure]
      exact remember_known linesOf _ file lines hLookup
  | none =>
      rw [remember_fresh linesOf renderer file hLookup, map_bind]
      rw [remember_fresh linesOf (renderer.inColor color) file hLookup]
      simp only [map_pure]
      rfl

/-- The files are looked at in the same way with colours and without. -/
theorem looks_inColor (linesOf : String → m (List String)) (color : Bool) (pointers : List Pointer) :
    pointers.foldlM (fun looked pointer => looked.remember linesOf pointer.span.file)
        (renderer.inColor color) =
      (fun looked => looked.inColor color) <$>
        pointers.foldlM (fun looked pointer => looked.remember linesOf pointer.span.file) renderer := by
  induction pointers generalizing renderer with
  | nil => simp
  | cons pointer pointers ih =>
      simp only [List.foldlM_cons, remember_inColor, bind_map_left, map_bind, ih]

/-- What a renderer shows of a diagnostic does not depend on the colours beyond
the sequences for them. -/
theorem uncolored_render (linesOf : String → m (List String)) (color : Bool) (diagnostic : Diagnostic) :
    (fun shown => uncolored shown.1) <$> (renderer.inColor color).render linesOf diagnostic =
      (fun shown => uncolored shown.1) <$> renderer.render linesOf diagnostic := by
  have hLayout (looked : Renderer) : uncolored ((looked.inColor color).layout diagnostic) =
      uncolored (looked.layout diagnostic) :=
    uncolored_layout (looked.inColor color) looked rfl diagnostic
  simp only [render, looks_inColor, bind_map_left, map_bind, map_pure, hLayout]

end Renderer

end Scriptlet
