import Scriptlet.Proofs.ErrorRow

namespace Scriptlet

open Text

namespace Renderer

variable {renderer : Renderer}

/-! Rows without colours. -/

theorem styled_of_plain (hPlain : renderer.color = false) (style : Style) (text : String) :
    renderer.styled style text = text := by
  simp [styled, Renderer.style, hPlain]

theorem length_gutter (number : Nat) :
    (gutter number).toList.length = max 4 (toString number).length := by
  have hDigits : toString (number : Int) = toString number := rfl
  simp only [gutter, hDigits, String.toList_append, String.toList_ofList, List.length_append,
    List.length_replicate, String.length_toList]
  omega

theorem feed_not_mem_gutter (number : Nat) : '\n' ∉ (gutter number).toList := by
  have hDigits : '\n' ∉ Nat.toDigits 10 number := fun hMem =>
    absurd (Nat.isDigit_of_mem_toDigits (by decide) (by decide) hMem) (by decide)
  have hText : (toString (number : Int)).toList = Nat.toDigits 10 number := Nat.toList_repr
  simp only [gutter, String.toList_append, String.toList_ofList, hText, List.mem_append, not_or]
  exact ⟨by simp, hDigits⟩

/-- In front of the line there are two columns, the number in at least four, and
three more. -/
theorem sourceRow_of_plain (hPlain : renderer.color = false) (number : Nat) (line : String) :
    ∃ front : List Char, (renderer.sourceRow number line).toList = front ++ line.toList ∧
      front.length = max 4 (toString number).length + 5 ∧ '\n' ∉ front := by
  refine ⟨"  ".toList ++ (gutter number).toList ++ " | ".toList, ?_, ?_, ?_⟩
  · simp [sourceRow, styled_of_plain hPlain]
  · rw [List.length_append, List.length_append, length_gutter]
    show 2 + _ + 3 = _
    omega
  · simp [feed_not_mem_gutter]

/-- A single place is marked by one caret, with seven columns in front of those
that the line begins with. -/
theorem caretRow_of_plain (hPlain : renderer.color = false) (file : String) (text : List Char)
    (offset : Int) :
    (renderer.caretRow (Span.of file text offset none)).toList =
      "     | ".toList ++ List.replicate ((lineCol text offset).2 - 1) ' ' ++ ['^'] := by
  have hCount : caretCount (Span.of file text offset none) = 1 := by
    simp [caretCount, Span.of]
  have hPadding : ((Span.of file text offset none).startCol - 1).toNat = (lineCol text offset).2 - 1 := by
    simp only [Span.of]
    omega
  rw [caretRow, hCount, hPadding]
  simp [margin, styled_of_plain hPlain]

/-- What is shown of an error in a registered text has the line of the error and
the carets below it as two of its rows. -/
theorem render_addSource {m : Type → Type} [Monad m] [LawfulMonad m]
    (linesOf : String → m (List String)) (renderer : Renderer) (error : ParseError)
    (text : List Char) {source caret : String}
    (hExcerpt : (renderer.addSource error.span.file text).excerpt error.span = [source, caret]) :
    ∃ above below, (renderer.addSource error.span.file text).render linesOf error.diagnostic =
      pure ("\n".intercalate (above ++ source :: caret :: below),
        renderer.addSource error.span.file text) := by
  have hKnown := renderer.lookup_addSource error.span.file text
  generalize renderer.addSource error.span.file text = known at hExcerpt hKnown
  refine ⟨[known.headerRow error.diagnostic, "  " ++ known.styled .frame "-->" ++ " " ++ error.span.text,
    known.margin], error.notes.map known.noteRow, ?_⟩
  rw [render_single linesOf known error.pointers_diagnostic, remember_known linesOf known _ _ hKnown,
    pure_bind, layout, rows, error.pointers_diagnostic]
  simp only [List.flatMap_cons, List.flatMap_nil, pointerRows, hExcerpt, remark]
  rfl

end Renderer

/-- Below the line of an error there is one caret. It stands to the left of the
character that the error is at, by two columns or, where the line number has more
than four digits, by as many more as there are further digits: the number has a
column for each of its digits and never less than four, and the row with the
caret leaves three for it. -/
theorem caret_left_of_error {m : Type → Type} [Monad m] [LawfulMonad m]
    (linesOf : String → m (List String)) (renderer : Renderer) (hPlain : renderer.color = false)
    (file : String) (text : List Char) (hFeeds : OnlyFeeds text) (offset : Nat)
    (hInside : offset < text.length) (hVisible : text[offset]? ≠ some '\n') (expected : List String)
    (message : Option String) :
    let error := ParseError.place offset expected text file message
    let known := renderer.addSource file text
    let digits := (toString (lineCol text offset).1).length
    ∃ (above : List String) (source caret : String) (below : List String) (column : Nat),
      known.render linesOf error.diagnostic =
        pure ("\n".intercalate (above ++ source :: caret :: below), known) ∧
      '\n' ∉ source.toList ∧ '\n' ∉ caret.toList ∧
      caret.toList.count '^' = 1 ∧ caret.toList[column]? = some '^' ∧
      source.toList[column + (max 4 digits - 2)]? = text[offset]? := by
  intro error known digits
  have hCut : OnlyFeeds (text.take (lineEnd text offset)) := fun c hc =>
    hFeeds c (List.mem_of_mem_take hc)
  have hExcerpt : known.excerpt error.span = _ := renderer.excerpt_addSource hInside hCut
  obtain ⟨above, below, hRender⟩ := renderer.render_addSource linesOf error text hExcerpt
  have hColor : known.color = false := hPlain
  obtain ⟨front, hSource, hFront, hNoFeed⟩ := Renderer.sourceRow_of_plain hColor (lineCol text offset).1
    (String.ofList (lineAt text offset))
  have hCaret := Renderer.caretRow_of_plain hColor file text offset
  have hPositive : 0 < (lineCol text offset).2 := Nat.succ_pos _
  have hFrame : ("     | ".toList ++ List.replicate ((lineCol text offset).2 - 1) ' ').length =
      6 + (lineCol text offset).2 := by
    rw [List.length_append, List.length_replicate]
    show 7 + _ = _
    omega
  refine ⟨above, _, _, below, 6 + (lineCol text offset).2, hRender, ?_, ?_, ?_, ?_, ?_⟩
  · rw [hSource, String.toList_ofList, List.mem_append, not_or]
    exact ⟨hNoFeed, feed_not_mem_lineAt text offset⟩
  · rw [hCaret]
    simp
  · rw [hCaret]
    simp [List.count_replicate]
  · rw [hCaret, ← hFrame]
    exact List.getElem?_concat_length
  · have hIndex : 6 + (lineCol text offset).2 + (max 4 digits - 2) - front.length =
        (lineCol text offset).2 - 1 := by omega
    rw [hSource, List.getElem?_append_right (by omega), hIndex, String.toList_ofList]
    exact lineAt_column hInside hVisible

/-- A parenthesis at the beginning of the second line is marked two columns too
far to the left. -/
theorem caret_left_of_error_second :
    let known := (Renderer.new false).addSource "f" "x\n)".toList
    ∃ (above : List String) (source caret : String) (below : List String) (column : Nat),
      known.render (fun _ => (pure [] : Id (List String)))
          (ParseError.place 2 ["end of input"] "x\n)".toList "f" none).diagnostic =
        pure ("\n".intercalate (above ++ source :: caret :: below), known) ∧
      '\n' ∉ source.toList ∧ '\n' ∉ caret.toList ∧
      caret.toList.count '^' = 1 ∧ caret.toList[column]? = some '^' ∧
      source.toList[column + 2]? = some ')' := by
  have hFeeds : OnlyFeeds "x\n)".toList := by
    simp [OnlyFeeds, isLineBreak]
  exact caret_left_of_error (fun _ => (pure [] : Id (List String))) (Renderer.new false) rfl "f"
    "x\n)".toList hFeeds 2 (by decide) (by decide) ["end of input"] none

/-- Two rows under one another, with a parenthesis in the tenth column of the
first one and the caret that is meant to point at it in the eighth of the second. -/
theorem caret_beside_character :
    let known := (Renderer.new false).addSource "f" ")".toList
    let source := "     1 | )"
    let caret := "     | ^"
    (known.render (fun _ => (pure [] : Id (List String)))
        (ParseError.place 0 ["x"] ")".toList "f" none).diagnostic).1 =
      "\n".intercalate
        ["error[E100]: expected x, found ')'", "  --> f:1:1", "     |", source, caret] ∧
      source.toList[9]? = some ')' ∧ caret.toList.idxOf '^' = 7 := by
  decide +kernel

end Scriptlet
