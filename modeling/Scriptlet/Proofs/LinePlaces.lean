import Mathlib.Data.Prod.Lex
import Mathlib.Order.Fin.Basic
import Mathlib.Order.Hom.Set
import Scriptlet.Proofs.Text.Lines

namespace Scriptlet

namespace Text

/-- The offset just after the line feed of a number, counted from one. The offset
of number zero is the beginning of the text. -/
def afterFeed : Nat → List Char → Nat
  | 0, _ => 0
  | _ + 1, [] => 0
  | n + 1, c :: rest => (if c = '\n' then afterFeed n rest else afterFeed (n + 1) rest) + 1

/-- The offset that a line and a column name: the columns are counted on from
where the line begins. -/
def offsetAt (text : List Char) (place : Nat × Nat) : Nat :=
  afterFeed (place.1 - 1) text + place.2 - 1

/-- A line that a text has, cut at the line feeds, and a column of that line. The
column behind the last character is one too: there is the line feed, or the end
of the text. -/
def IsPlace (text : List Char) (place : Nat × Nat) : Prop :=
  1 ≤ place.1 ∧ 1 ≤ place.2 ∧
    ∃ line, (text.splitOn '\n')[place.1 - 1]? = some line ∧ place.2 ≤ line.length + 1

/-- Nothing but whole lines, each with its line feed. -/
def Whole (text : List Char) : Prop := text = [] ∨ ∃ front, text = front ++ ['\n']

variable {text whole line after : List Char} {offset : Int}

/-- Behind whole lines there is a beginning of one that has no line feed yet. -/
theorem exists_whole (text : List Char) :
    ∃ whole line, text = whole ++ line ∧ Whole whole ∧ '\n' ∉ line := by
  obtain ⟨run, tail, hSplit, hRun, hTail⟩ := exists_run (· != '\n') text.reverse
  refine ⟨tail.reverse, run.reverse, ?_, ?_, ?_⟩
  · rw [← List.reverse_append, ← hSplit, List.reverse_reverse]
  · cases tail with
    | nil => exact .inl rfl
    | cons c tail =>
        obtain rfl : c = '\n' := by simpa using hTail c rfl
        exact .inr ⟨tail.reverse, List.reverse_cons⟩
  · intro hFeed
    simpa using hRun '\n' (List.mem_reverse.mp hFeed)

theorem afterFeed_append (front rest : List Char) :
    afterFeed (front.count '\n' + 1) (front ++ '\n' :: rest) = front.length + 1 := by
  induction front with
  | nil => simp [afterFeed]
  | cons c front ih =>
      by_cases hFeed : c = '\n'
      · simp [afterFeed, hFeed, ih]
      · simp [afterFeed, hFeed, ih]

theorem Whole.afterFeed_append (h : Whole whole) (rest : List Char) :
    afterFeed (whole.count '\n') (whole ++ rest) = whole.length := by
  obtain rfl | ⟨front, rfl⟩ := h
  · simp [afterFeed]
  · have hFeeds : (front ++ ['\n']).count '\n' = front.count '\n' + 1 := by simp
    rw [hFeeds, List.append_assoc, List.singleton_append, Text.afterFeed_append]
    simp

/-- The whole lines in front of an offset count for its line, and what stands
behind them for its column. -/
theorem lineCol_of_split (hText : text.take (clampOffset text offset) = whole ++ line)
    (hWhole : Whole whole) (hLine : '\n' ∉ line) :
    lineCol text offset = (whole.count '\n' + 1, line.length + 1) := by
  have hRun : (whole ++ line).reverse.takeWhile (· != '\n') = line.reverse := by
    rw [List.reverse_append]
    apply takeWhile_run
    · intro c hc
      have hMem := List.mem_reverse.mp hc
      simpa using fun hFeed : c = '\n' => hLine (hFeed ▸ hMem)
    · obtain rfl | ⟨front, rfl⟩ := hWhole <;> simp
  rw [lineCol, hText]
  simp only [hRun, List.count_append, List.count_eq_zero.mpr hLine, Nat.add_zero,
    List.length_reverse]

/-- The offset is found again from its line and its column. -/
theorem offsetAt_lineCol (text : List Char) (offset : Int) :
    offsetAt text (lineCol text offset) = clampOffset text offset := by
  obtain ⟨whole, line, hSplit, hWhole, hLine⟩ := exists_whole (text.take (clampOffset text offset))
  have hText : text = whole ++ (line ++ text.drop (clampOffset text offset)) := by
    rw [← List.append_assoc, ← hSplit, List.take_append_drop]
  have hLength := congrArg List.length hSplit
  have hStart : afterFeed (whole.count '\n') text = whole.length := by
    rw [hText]
    exact hWhole.afterFeed_append _
  have hClamp : clampOffset text offset ≤ text.length := Nat.min_le_right _ _
  rw [List.length_take, Nat.min_eq_left hClamp, List.length_append] at hLength
  rw [lineCol_of_split hSplit hWhole hLine, offsetAt]
  simp only [Nat.add_sub_cancel, hStart]
  omega

theorem clampOffset_mono {first second : Int} (h : first ≤ second) :
    clampOffset text first ≤ clampOffset text second := by
  simp only [clampOffset]
  omega

theorem clampOffset_eq (text : List Char) (offset : Int) :
    (clampOffset text offset : Int) = max 0 (min offset text.length) := by
  simp only [clampOffset]
  omega

/-- Further offsets are on later lines, or in later columns of the same line. -/
theorem lineCol_lt {first second : Int} (h : clampOffset text first < clampOffset text second) :
    toLex (lineCol text first) < toLex (lineCol text second) := by
  have hFirst := offsetAt_lineCol text first
  have hSecond := offsetAt_lineCol text second
  have hLines : (lineCol text first).1 ≤ (lineCol text second).1 := by
    apply Nat.succ_le_succ
    exact (List.take_sublist_take_left (Nat.le_of_lt h)).count_le '\n'
  rw [Prod.Lex.toLex_lt_toLex]
  rcases Nat.lt_or_eq_of_le hLines with hLine | hLine
  · exact .inl hLine
  · -- On one line both columns are counted from the same offset.
    refine .inr ⟨hLine, ?_⟩
    rw [offsetAt, hLine] at hFirst
    rw [offsetAt] at hSecond
    omega

theorem lineCol_le {first second : Int} (h : first ≤ second) :
    toLex (lineCol text first) ≤ toLex (lineCol text second) := by
  have hOffsets : clampOffset text first ≤ clampOffset text second := clampOffset_mono h
  rcases Nat.lt_or_eq_of_le hOffsets with hLess | hSame
  · exact le_of_lt (lineCol_lt hLess)
  · rw [lineCol, lineCol, hSame]

/-! Lines cut at the line feeds. -/

/-- The first line of a text, and what follows if there are more. -/
theorem exists_line (text : List Char) :
    ∃ line tail, text = line ++ tail ∧ '\n' ∉ line ∧
      (tail = [] ∧ text.splitOn '\n' = [line] ∨
        ∃ rest, tail = '\n' :: rest ∧ text.splitOn '\n' = line :: rest.splitOn '\n') := by
  obtain ⟨line, tail, rfl, hLine, hTail⟩ := exists_run (· != '\n') text
  have hFeed : '\n' ∉ line := fun hMem => by simpa using hLine '\n' hMem
  refine ⟨line, tail, rfl, hFeed, ?_⟩
  cases tail with
  | nil => exact .inl ⟨rfl, by rw [List.append_nil, List.splitOn_eq_singleton hFeed]⟩
  | cons c rest =>
      obtain rfl : c = '\n' := by simpa using hTail c rfl
      exact .inr ⟨rest, rfl, List.splitOn_append_cons_self_of_not_mem hFeed rest⟩

theorem length_splitOn (text : List Char) :
    (text.splitOn '\n').length = text.count '\n' + 1 := by
  induction text with
  | nil => rfl
  | cons c text ih =>
      rw [List.splitOn_cons_eq_if_modifyHead]
      by_cases hFeed : c = '\n'
      · simp [hFeed, ih]
      · simp [hFeed, ih]

/-- Whole lines in front are cut off, one at every line feed. -/
theorem Whole.drop_splitOn (h : Whole whole) (rest : List Char) :
    ((whole ++ rest).splitOn '\n').drop (whole.count '\n') = rest.splitOn '\n' := by
  obtain rfl | ⟨front, rfl⟩ := h
  · rfl
  · have hFeeds : (front ++ ['\n']).count '\n' = (front.splitOn '\n').length := by
      simp [length_splitOn]
    rw [hFeeds, List.append_assoc, List.singleton_append, List.splitOn_append_cons_self,
      List.drop_left]

/-- Characters in front that are no line feeds belong to the first line. -/
theorem splitOn_append (hLine : '\n' ∉ line) (rest : List Char) :
    (line ++ rest).splitOn '\n' = (rest.splitOn '\n').modifyHead (line ++ ·) := by
  induction line with
  | nil => exact (congrFun List.modifyHead_id _).symm
  | cons c line ih =>
      rw [List.mem_cons, not_or] at hLine
      rw [List.cons_append, List.splitOn_cons_eq_if_modifyHead, ih hLine.2, List.modifyHead_modifyHead,
        if_neg (by simpa using Ne.symm hLine.1)]
      rfl

/-- The line of a number, with the whole lines in front of it. -/
theorem exists_whole_of_splitOn {n : Nat} (h : (text.splitOn '\n')[n]? = some line) :
    ∃ whole after, text = whole ++ (line ++ after) ∧ Whole whole ∧ whole.count '\n' = n ∧
      '\n' ∉ line := by
  induction n generalizing text with
  | zero =>
      obtain ⟨first, tail, rfl, hFirst, hLines⟩ := exists_line text
      have hHead : ((first ++ tail).splitOn '\n')[0]? = some first := by
        rcases hLines with ⟨_, hLines⟩ | ⟨_, _, hLines⟩ <;> rw [hLines, List.getElem?_cons_zero]
      obtain rfl := Option.some.inj (hHead.symm.trans h)
      exact ⟨[], tail, rfl, .inl rfl, rfl, hFirst⟩
  | succ n ih =>
      obtain ⟨first, tail, rfl, hFirst, ⟨_, hLines⟩ | ⟨rest, rfl, hLines⟩⟩ := exists_line text
      · simp [hLines] at h
      · rw [hLines, List.getElem?_cons_succ] at h
        obtain ⟨whole, after, rfl, hWhole, rfl, hLine⟩ := ih h
        refine ⟨first ++ '\n' :: whole, after, by simp, ?_, ?_, hLine⟩
        · obtain rfl | ⟨front, rfl⟩ := hWhole
          · exact .inr ⟨first, rfl⟩
          · exact .inr ⟨first ++ '\n' :: front, by simp⟩
        · simp [List.count_eq_zero.mpr hFirst]

/-- The lines and columns of a text are those of its offsets. -/
theorem isPlace_iff {place : Nat × Nat} :
    IsPlace text place ↔ ∃ offset : Nat, offset ≤ text.length ∧ lineCol text offset = place := by
  constructor
  · obtain ⟨number, column⟩ := place
    rintro ⟨hNumber, hColumn, line, hLine, hWithin⟩
    obtain ⟨whole, after, rfl, hWhole, hCount, hFeed⟩ := exists_whole_of_splitOn hLine
    have hInside : whole.length + (column - 1) ≤ (whole ++ (line ++ after)).length := by
      simp only [List.length_append]
      omega
    refine ⟨whole.length + (column - 1), hInside, ?_⟩
    have hTake : (whole ++ (line ++ after)).take (whole.length + (column - 1)) =
        whole ++ line.take (column - 1) := by
      rw [List.take_length_add_append, List.take_append_of_le_length (by omega)]
    rw [lineCol_of_split (clampOffset_of_le hInside ▸ hTake) hWhole
      fun hMem => hFeed (List.mem_of_mem_take hMem), hCount, List.length_take, Prod.mk.injEq]
    omega
  · rintro ⟨offset, hInside, rfl⟩
    obtain ⟨whole, line, hSplit, hWhole, hLine⟩ := exists_whole (text.take (clampOffset text offset))
    have hText : text = whole ++ (line ++ text.drop (clampOffset text offset)) := by
      rw [← List.append_assoc, ← hSplit, List.take_append_drop]
    have hLines := hWhole.drop_splitOn (line ++ text.drop (clampOffset text offset))
    rw [← hText, splitOn_append hLine] at hLines
    obtain ⟨first, others, hRest⟩ := List.exists_cons_of_ne_nil
      (List.splitOn_ne_nil '\n' (text.drop (clampOffset text offset)))
    rw [hRest, List.modifyHead_cons] at hLines
    rw [lineCol_of_split hSplit hWhole hLine]
    refine ⟨Nat.succ_pos _, Nat.succ_pos _, line ++ first, ?_, ?_⟩
    · rw [Nat.add_sub_cancel, ← List.head?_drop, hLines]
      rfl
    · rw [List.length_append]
      omega

/-- The characters of a text from one offset to another, of which the first and
the last one stand where they do in the text. -/
theorem slice_ends {start stop : Nat} (hSome : start < stop) (hInside : stop ≤ text.length) :
    ((text.take stop).drop start).head? = text[start]? ∧
      ((text.take stop).drop start).getLast? = text[stop - 1]? := by
  constructor
  · rw [List.head?_drop, List.getElem?_take_of_lt hSome]
  · rw [List.getLast?_drop, List.getLast?_take, List.length_take, Nat.min_eq_left hInside,
      if_neg (by omega), if_neg (by omega), List.getElem?_eq_getElem (by omega)]
    rfl

end Text

open Text

namespace Span

variable {text : List Char}

/-- The range from one line and column to another. -/
def between (file : String) (first last : Nat × Nat) : Span :=
  ⟨file, first.1, first.2, last.1, last.2⟩

/-- A range begins at its start and ends in front of its stop, or where it begins
if there is nothing in front of that. -/
theorem of_eq_between (file : String) (text : List Char) (start : Int) (stop : Option Int) :
    ∃ final : Int, start ≤ final ∧ (∀ place ∈ stop, start < place → final = place - 1) ∧
      Span.of file text start stop = .between file (lineCol text start) (lineCol text final) := by
  by_cases hEmpty : ∀ place ∈ stop, place ≤ start
  · refine ⟨start, le_rfl, fun place hPlace hBeyond => ?_, ?_⟩
    · exact absurd (hEmpty place hPlace) (Int.not_le.mpr hBeyond)
    · cases stop with
      | none => rfl
      | some stop => simp [Span.of, between, hEmpty stop rfl]
  · push Not at hEmpty
    obtain ⟨stop, rfl, hBeyond⟩ := hEmpty
    refine ⟨stop - 1, by omega, ?_, ?_⟩
    · rintro place hPlace _
      rw [Option.some.inj hPlace]
    · simp [Span.of, between, Int.not_le.mpr hBeyond]

end Span

/-- Lines and columns are another way to name the offsets of a text. The line of
an offset counts the line feeds before it, and the offset is found again from where
its line begins. The offsets that the text has correspond to the columns of its
lines, and a further offset to a later line or to a later column. So no range ends
before it begins, and a range within the text ends at its last character. -/
theorem lineCol_orderIso (text : List Char) :
    (∀ offset : Int,
      (clampOffset text offset : Int) = max 0 (min offset text.length) ∧
      (lineCol text offset).1 = 1 + (text.take (clampOffset text offset)).count '\n' ∧
      1 ≤ (lineCol text offset).2 ∧
      offsetAt text (lineCol text offset) = clampOffset text offset) ∧
    (∃ places : Fin (text.length + 1) ≃o {place : ℕ ×ₗ ℕ // IsPlace text (ofLex place)},
      ∀ offset, (places offset).1 = toLex (lineCol text (offset : Nat))) ∧
    ∀ (file : String) (start : Int) (stop : Option Int),
      ∃ first last : Nat × Nat, Span.of file text start stop = .between file first last ∧
        toLex first ≤ toLex last ∧
        ∀ place ∈ stop, 0 ≤ start → start < place → place ≤ text.length →
          (offsetAt text first : Int) = start ∧ (offsetAt text last : Int) = place - 1 ∧
          text[offsetAt text first]? = ((text.take place.toNat).drop start.toNat).head? ∧
          text[offsetAt text last]? = ((text.take place.toNat).drop start.toNat).getLast? := by
  refine ⟨fun offset => ?_, ?_, fun file start stop => ?_⟩
  · exact ⟨clampOffset_eq text offset, Nat.add_comm _ _, Nat.succ_pos _, offsetAt_lineCol text offset⟩
  · have hInside (offset : Fin (text.length + 1)) : (offset : Nat) ≤ text.length :=
      Nat.le_of_lt_succ offset.isLt
    let place (offset : Fin (text.length + 1)) : {place : ℕ ×ₗ ℕ // IsPlace text (ofLex place)} :=
      ⟨toLex (lineCol text (offset : Nat)), isPlace_iff.mpr ⟨offset, hInside offset, rfl⟩⟩
    have hLater : StrictMono place := by
      intro offset later hLess
      apply lineCol_lt
      rwa [clampOffset_of_le (hInside offset), clampOffset_of_le (hInside later)]
    have hAll : Function.Surjective place := by
      rintro ⟨other, hOther⟩
      obtain ⟨offset, hOffset, hPlace⟩ := isPlace_iff.mp hOther
      exact ⟨⟨offset, Nat.lt_succ_of_le hOffset⟩, Subtype.ext (congrArg toLex hPlace)⟩
    exact ⟨hLater.orderIsoOfSurjective place hAll, fun offset => rfl⟩
  · obtain ⟨final, hLater, hFinal, hSpan⟩ := Span.of_eq_between file text start stop
    refine ⟨_, _, hSpan, lineCol_le hLater, fun place hPlace hStart hBeyond hWithin => ?_⟩
    obtain rfl := hFinal place hPlace hBeyond
    lift start to ℕ using hStart
    lift place to ℕ using by omega
    have hFirst : clampOffset text start = start := clampOffset_of_le (by omega)
    have hLast : clampOffset text ((place : Int) - 1) = place - 1 := by
      simp only [clampOffset]
      omega
    have hSome : start < place := by omega
    have hInside : place ≤ text.length := by omega
    obtain ⟨hHead, hEnd⟩ := slice_ends hSome hInside
    simp only [offsetAt_lineCol, hFirst, hLast, Int.toNat_natCast]
    exact ⟨trivial, by omega, hHead.symm, hEnd.symm⟩

end Scriptlet
