import Scriptlet.Proofs.Parsing.Step
import Scriptlet.Text.Lines
import Scriptlet.Text.Position

namespace Scriptlet.Text

/-- Where the line of an offset ends. A line feed ends its own line. -/
def lineEnd (text : List Char) (offset : Nat) : Nat :=
  offset + ((text.drop offset).takeWhile (· != '\n')).length

/-- The line of an offset: what stands between the line feed before the offset
and the one at or after it, or else the ends of the text. -/
def lineAt (text : List Char) (offset : Nat) : List Char :=
  ((text.take offset).reverse.takeWhile (· != '\n')).reverse ++
    (text.drop offset).takeWhile (· != '\n')

/-- Nothing but line feeds breaks the lines of a text when it is displayed. -/
def OnlyFeeds (text : List Char) : Prop := ∀ c ∈ text, isLineBreak c = true → c = '\n'

variable {text before line after : List Char} {offset : Nat}

theorem feed_not_mem_takeWhile (text : List Char) : '\n' ∉ text.takeWhile (· != '\n') := by
  intro hMem
  have hAll := List.all_eq_true.mp List.all_takeWhile '\n' hMem
  simp at hAll

theorem feed_not_mem_lineAt (text : List Char) (offset : Nat) : '\n' ∉ lineAt text offset := by
  rw [lineAt, List.mem_append, List.mem_reverse, not_or]
  exact ⟨feed_not_mem_takeWhile _, feed_not_mem_takeWhile _⟩

theorem OnlyFeeds.not_break {c : Char} (h : OnlyFeeds text) (hMem : c ∈ text) (hFeed : c ≠ '\n') :
    isLineBreak c = false := by
  cases hBreak : isLineBreak c with
  | false => rfl
  | true => exact absurd (h c hMem hBreak) hFeed

theorem clampOffset_of_le (h : offset ≤ text.length) : clampOffset text offset = offset := by
  rw [clampOffset, Int.toNat_natCast, Nat.min_eq_left h]

theorem lineCol_column (h : offset ≤ text.length) :
    (lineCol text offset).2 = ((text.take offset).reverse.takeWhile (· != '\n')).length + 1 := by
  rw [lineCol, clampOffset_of_le h]

/-- A character that is no line feed is found in its line by its column. -/
theorem lineAt_column (h : offset < text.length) (hVisible : text[offset]? ≠ some '\n') :
    (lineAt text offset)[(lineCol text offset).2 - 1]? = text[offset]? := by
  have hHere : text.drop offset = text[offset] :: text.drop (offset + 1) :=
    List.drop_eq_getElem_cons h
  have hChar : text[offset]? = some text[offset] := List.getElem?_eq_getElem h
  have hMore : (text[offset] != '\n') = true := by
    rw [hChar] at hVisible
    simpa using hVisible
  rw [lineCol_column (Nat.le_of_lt h), Nat.add_sub_cancel, lineAt, hHere, List.takeWhile_cons,
    if_pos hMore, List.getElem?_append_right (by simp), List.length_reverse, Nat.sub_self, hChar]
  rfl

/-- What stands before and after the line of an offset. The line feeds before it
are those that its number counts. -/
structure AroundLine (text : List Char) (offset : Nat) (before after : List Char) : Prop where
  split : text = before ++ (lineAt text offset ++ after)
  upToEnd : text.take (lineEnd text offset) = before ++ lineAt text offset
  start : before = [] ∨ before.getLast? = some '\n'
  reached : before.length ≤ offset
  stop : ∀ c ∈ after.head?, c = '\n'
  number : (lineCol text offset).1 = before.count '\n' + 1

theorem exists_aroundLine (h : offset ≤ text.length) :
    ∃ before after, AroundLine text offset before after := by
  obtain ⟨run, rest, hRest, hRun, hFeed⟩ := exists_run (· != '\n') (text.take offset).reverse
  obtain ⟨more, after, hDrop, hMore, hAfter⟩ := exists_run (· != '\n') (text.drop offset)
  have hHead : (text.take offset).reverse.takeWhile (· != '\n') = run :=
    hRest ▸ takeWhile_run hRun hFeed
  have hTail : (text.drop offset).takeWhile (· != '\n') = more := hDrop ▸ takeWhile_run hMore hAfter
  have hTake : text.take offset = rest.reverse ++ run.reverse := by
    rw [← List.reverse_append, ← hRest, List.reverse_reverse]
  have hLine : lineAt text offset = run.reverse ++ more := by rw [lineAt, hHead, hTail]
  refine ⟨rest.reverse, after, ?_, ?_, ?_, ?_, ?_, ?_⟩
  · rw [hLine, List.append_assoc, ← hDrop, ← List.append_assoc, ← hTake, List.take_append_drop]
  · rw [lineEnd, hTail, List.take_add, hTake, hDrop, List.take_left, hLine, List.append_assoc]
  · rw [List.getLast?_reverse]
    cases rest with
    | nil => exact .inl rfl
    | cons c rest => exact .inr (by simpa using hFeed)
  · have hLength := congrArg List.length hTake
    simp only [List.length_take, List.length_append] at hLength
    omega
  · intro c hc
    simpa using hAfter c hc
  · have hNone : run.reverse.count '\n' = 0 := by
      rw [List.count_eq_zero, List.mem_reverse, ← hHead]
      exact feed_not_mem_takeWhile _
    rw [lineCol, clampOffset_of_le h, hTake]
    simp only [List.count_append, hNone, Nat.add_zero]

/-! Cutting a text. -/

theorem cutLines_feed (line rest : List Char) :
    cutLines line ('\n' :: rest) = line.reverse :: cutLines [] rest := by
  rw [cutLines, if_pos (by decide)]
  intro _ h
  cases h

theorem cutLines_more {c : Char} (h : isLineBreak c = false) (line rest : List Char) :
    cutLines line (c :: rest) = cutLines (c :: line) rest := by
  rw [cutLines, if_neg (by simp [h])]
  rintro _ rfl
  cases h

theorem cutLines_run {run : List Char} (h : ∀ c ∈ run, isLineBreak c = false) (line rest : List Char) :
    cutLines line (run ++ rest) = cutLines (run.reverse ++ line) rest := by
  induction run generalizing line with
  | nil => rfl
  | cons c run ih =>
      rw [List.cons_append, cutLines_more (h c List.mem_cons_self),
        ih fun x hx => h x (List.mem_cons_of_mem c hx)]
      simp

/-- Whole lines in front are cut off, one at every line feed. -/
theorem drop_cutLines (hFeeds : OnlyFeeds before)
    (hWhole : before = [] ∧ line = [] ∨ before.getLast? = some '\n') (rest : List Char) :
    (cutLines line (before ++ rest)).drop (before.count '\n') = cutLines [] rest := by
  induction before generalizing line with
  | nil =>
      obtain ⟨_, rfl⟩ : [] = [] ∧ line = [] := hWhole.resolve_right (by simp)
      rfl
  | cons c before ih =>
      have hLater : OnlyFeeds before := fun x hx => hFeeds x (List.mem_cons_of_mem c hx)
      have hLast : (c :: before).getLast? = some '\n' := hWhole.resolve_left (by simp)
      by_cases hFeed : c = '\n'
      · subst hFeed
        rw [List.cons_append, cutLines_feed, List.count_cons_self, List.drop_succ_cons]
        apply ih hLater
        cases before with
        | nil => exact .inl ⟨rfl, rfl⟩
        | cons x before => exact .inr (by rwa [List.getLast?_cons_cons] at hLast)
      · have hMore : isLineBreak c = false := hFeeds.not_break List.mem_cons_self hFeed
        rw [List.cons_append, cutLines_more hMore, List.count_cons_of_ne hFeed]
        apply ih hLater
        cases before with
        | nil => exact absurd (Option.some.inj hLast) hFeed
        | cons x before => exact .inr (by rwa [List.getLast?_cons_cons] at hLast)

/-- The first line of a text that is not empty. -/
theorem head_cutLines (hLine : ∀ c ∈ line, isLineBreak c = false) (hAfter : ∀ c ∈ after.head?, c = '\n')
    (hSome : line ++ after ≠ []) : (cutLines [] (line ++ after)).head? = some line := by
  rw [cutLines_run hLine, List.append_nil]
  cases after with
  | nil =>
      have hLineSome : line ≠ [] := by simpa using hSome
      simp [cutLines, hLineSome]
  | cons c after =>
      obtain rfl := hAfter c rfl
      simp [cutLines_feed]

/-- Where only line feeds break lines up to the end of the line of an offset,
that line is displayed under the number that the offset has. -/
theorem splitLines_lineAt (h : offset < text.length)
    (hFeeds : OnlyFeeds (text.take (lineEnd text offset))) :
    (splitLines text)[(lineCol text offset).1 - 1]? = some (String.ofList (lineAt text offset)) := by
  obtain ⟨before, after, hAround⟩ := exists_aroundLine (Nat.le_of_lt h)
  rw [hAround.upToEnd] at hFeeds
  have hBefore : OnlyFeeds before := fun c hc => hFeeds c (List.mem_append_left _ hc)
  have hLine : ∀ c ∈ lineAt text offset, isLineBreak c = false := fun c hc =>
    hFeeds.not_break (List.mem_append_right before hc) fun hFeed =>
      feed_not_mem_lineAt text offset (hFeed ▸ hc)
  have hSome : lineAt text offset ++ after ≠ [] := by
    intro hNone
    have hText := hAround.split
    rw [hNone, List.append_nil] at hText
    have hReached := hAround.reached
    rw [← hText] at hReached
    exact absurd hReached (Nat.not_le_of_lt h)
  have hCut : (cutLines [] text).drop (before.count '\n') = cutLines [] (lineAt text offset ++ after) := by
    conv => lhs; rw [hAround.split]
    exact drop_cutLines hBefore (hAround.start.imp_left fun hNil => ⟨hNil, rfl⟩) _
  have hFirst := head_cutLines hLine hAround.stop hSome
  rw [← hCut, List.head?_drop] at hFirst
  rw [hAround.number, Nat.add_sub_cancel, splitLines, List.getElem?_map, hFirst]
  rfl

end Scriptlet.Text
