import Scriptlet.Proofs.Diagnostic.Renderer
import Scriptlet.Proofs.Text.Lines

namespace Scriptlet

open Text

namespace Renderer

variable {file : String} {text : List Char}

/-- The lines of a registered text are found by their numbers. -/
theorem line?_addSource (renderer : Renderer) (file : String) (text : List Char) (number : Nat) :
    (renderer.addSource file text).line? file (number + 1 : Nat) = (splitLines text)[number]? := by
  have hPositive : ¬ ((number + 1 : Nat) : Int) < 1 := by omega
  have hIndex : (((number + 1 : Nat) : Int) - 1).toNat = number := by omega
  rw [line?, if_neg hPositive, hIndex, lookup_addSource]
  rfl

/-- The excerpt for a place in a registered text is the line that the place is
in, under its number, provided that only line feeds break lines up to there. -/
theorem excerpt_addSource (renderer : Renderer) {offset : Nat} (h : offset < text.length)
    (hFeeds : OnlyFeeds (text.take (lineEnd text offset))) :
    (renderer.addSource file text).excerpt (Span.of file text offset none) =
      [(renderer.addSource file text).sourceRow (lineCol text offset).1
          (String.ofList (lineAt text offset)),
        (renderer.addSource file text).caretRow (Span.of file text offset none)] := by
  have hLine := splitLines_lineAt h hFeeds
  have hNumber : (lineCol text offset).1 = (lineCol text offset).1 - 1 + 1 := by
    rw [lineCol, Nat.add_sub_cancel]
  have hShown : (renderer.addSource file text).line? (Span.of file text offset none).file
      (Span.of file text offset none).startLine = some (String.ofList (lineAt text offset)) := by
    rw [← hLine, ← line?_addSource renderer file, ← hNumber]
    rfl
  rw [excerpt, hShown]
  rfl

end Renderer

/-- The diagnostic of an error in a registered text shows the line that the error
is in, from one line feed to the next, beside the line number of the error. This
needs that no other character up to the end of that line breaks lines when the
text is shown. -/
theorem error_row_shown {m : Type → Type} [Monad m] [LawfulMonad m]
    (linesOf : String → m (List String)) (renderer : Renderer) (file : String) (text : List Char)
    (offset : Nat) (hInside : offset < text.length)
    (hFeeds : OnlyFeeds (text.take (lineEnd text offset))) (expected : List String)
    (message : Option String) :
    let error := ParseError.place offset expected text file message
    let known := renderer.addSource file text
    known.render linesOf error.diagnostic = pure
      ("\n".intercalate (known.headerRow error.diagnostic ::
        ("  " ++ known.styled .frame "-->" ++ " " ++ error.span.text) ::
        known.margin ::
        known.sourceRow (lineCol text offset).1 (String.ofList (lineAt text offset)) ::
        known.caretRow error.span ::
        error.notes.map known.noteRow), known) := by
  intro error known
  have hExcerpt : known.excerpt error.span = _ := renderer.excerpt_addSource hInside hFeeds
  have hKnown : known.recorded.lookup error.span.file = some (splitLines text) :=
    renderer.lookup_addSource file text
  have hPointers : error.diagnostic.pointers = [⟨error.span, ""⟩] := error.pointers_diagnostic
  have hNotes : error.diagnostic.notes = error.notes := rfl
  rw [Renderer.render_single linesOf known hPointers,
    Renderer.remember_known linesOf known _ _ hKnown, pure_bind, Renderer.layout, Renderer.rows,
    hPointers, hNotes]
  simp only [List.flatMap_cons, List.flatMap_nil, Renderer.pointerRows, hExcerpt, Renderer.remark]
  rfl

/-- The second line of two is shown for an error in it. -/
theorem error_row_shown_second :
    let known := (Renderer.new false).addSource "f" "x\n)".toList
    (known.render (fun _ => (pure [] : Id (List String)))
      (ParseError.place 2 ["end of input"] "x\n)".toList "f" none).diagnostic).1 =
        "error[E100]: expected end of input, found ')'\n  --> f:2:1\n     |\n     2 | )\n     | ^" := by
  intro known
  have hFeeds : OnlyFeeds ("x\n)".toList.take (lineEnd "x\n)".toList 2)) := by
    simp [OnlyFeeds, isLineBreak, lineEnd]
  have hShown := error_row_shown (fun _ => (pure [] : Id (List String))) (Renderer.new false) "f"
    "x\n)".toList 2 (by decide) hFeeds ["end of input"] none
  have hText := congrArg Prod.fst hShown
  apply hText.trans
  decide +kernel

/-- A form feed in a string is not counted in the line number of an error behind
it, and breaks the line in which it is shown. So the row shown beside number two
is no line of the text at all, but the rest of the first line. -/
theorem error_row_shifted :
    let text := "\"a\x0cb\"\n)".toList
    let known := (Renderer.new false).addSource "f" text
    lineCol text 6 = (2, 1) ∧ lineAt text 6 = [')'] ∧
      (known.render (fun _ => (pure [] : Id (List String)))
        (ParseError.place 6 ["x"] text "f" none).diagnostic).1 =
          "error[E100]: expected x, found ')'\n  --> f:2:1\n     |\n     2 | b\"\n     | ^" := by
  decide +kernel

end Scriptlet
