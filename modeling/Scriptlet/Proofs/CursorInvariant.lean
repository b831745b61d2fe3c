import Scriptlet.Proofs.Descriptions

namespace Scriptlet

namespace Cursor

variable {c mid next : Cursor} {offset : Nat}

/-- The second place comes after some of the characters that follow the first. -/
def Reaches (c next : Cursor) : Prop := ∃ n, n ≤ c.rest.length ∧ next = c.skip n

/-- The offset is one of those from the place to the end of the text. -/
def Spans (c : Cursor) (offset : Nat) : Prop :=
  c.offset ≤ offset ∧ offset ≤ c.offset + c.rest.length

theorem Reaches.refl (c : Cursor) : c.Reaches c := ⟨0, Nat.zero_le _, c.skip_zero.symm⟩

theorem Reaches.trans (h : c.Reaches mid) (hNext : mid.Reaches next) : c.Reaches next := by
  obtain ⟨m, hm, rfl⟩ := h
  obtain ⟨n, hn, rfl⟩ := hNext
  rw [rest_skip, List.length_drop] at hn
  exact ⟨m + n, by omega, skip_skip c m n⟩

theorem Spans.refl (c : Cursor) : c.Spans c.offset := ⟨Nat.le_refl _, Nat.le_add_right _ _⟩

theorem Spans.of_reaches (h : c.Reaches mid) (hOffset : mid.Spans offset) : c.Spans offset := by
  obtain ⟨n, hn, rfl⟩ := h
  obtain ⟨hLow, hHigh⟩ := hOffset
  rw [offset_skip] at hLow hHigh
  rw [rest_skip, List.length_drop] at hHigh
  exact ⟨by omega, by omega⟩

theorem Reaches.spans (h : c.Reaches next) : c.Spans next.offset := .of_reaches h (.refl next)

theorem reaches_next {x : Char} (h : c.next? = some (x, next)) : c.Reaches next := by
  cases hRest : c.rest with
  | nil =>
      rw [next?_of_nil hRest] at h
      cases h
  | cons y text =>
      rw [next?_of_cons hRest] at h
      cases h
      exact ⟨1, by simp [hRest], rfl⟩

theorem reaches_after {word : List Char} (h : c.after? word = some next) : c.Reaches next := by
  unfold after? at h
  split at h
  · rename_i hWord
    cases h
    simp only [Bool.and_eq_true, List.isPrefixOf_iff_prefix] at hWord
    exact ⟨word.length, hWord.2.length_le, rfl⟩
  · cases h

end Cursor

/-- A failure is where a parser that started at a place can have got to. It
names something that was expected. It is committed only if it got further than
the start and, where the strict reading applies, always then. -/
structure Failure.Sound (strict : Prop) (c : Cursor) (reason : Failure) : Prop where
  spans : c.Spans reason.offset
  expects : reason.expected.toList ≠ []
  moved : reason.consumed = true → c.offset < reason.offset
  committed : strict → c.offset < reason.offset → reason.consumed = true

namespace Failure.Sound

variable {strict : Prop} {c start reached : Cursor} {reason left right : Failure}

theorem here (c : Cursor) (label : String) : Sound strict c (.here c label) where
  spans := .refl c
  expects := List.ne_nil_of_mem (Labels.mem_single.mpr rfl)
  moved hBad := absurd hBad Bool.false_ne_true
  committed _ hBad := absurd hBad (Nat.lt_irrefl c.offset)

/-- A committed failure is passed on as it is by whatever started before it. -/
theorem of_committed (hReached : start.Reaches reached) (h : Sound strict reached reason)
    (hCommitted : reason.consumed = true) : Sound strict start reason where
  spans := .of_reaches hReached h.spans
  expects := h.expects
  moved hConsumed := Nat.lt_of_le_of_lt hReached.spans.1 (h.moved hConsumed)
  committed _ _ := hCommitted

/-- What a sequence has moved before a part of it fails counts as consumed. -/
theorem later (hReached : start.Reaches reached) (h : Sound strict reached reason) :
    Sound strict start (reason.later start reached) where
  spans := .of_reaches hReached h.spans
  expects := h.expects
  moved hConsumed := by
    have hLow := hReached.spans.1
    have hHere := h.spans.1
    simp only [Failure.later, Bool.or_eq_true, decide_eq_true_eq] at hConsumed ⊢
    rcases hConsumed with hConsumed | hMoved
    · exact Nat.lt_of_le_of_lt hLow (h.moved hConsumed)
    · omega
  committed hStrict hFurther := by
    simp only [Failure.later, Bool.or_eq_true, decide_eq_true_eq] at hFurther ⊢
    by_cases hMoved : start.offset < reached.offset
    · exact .inr hMoved
    · exact .inl (h.committed hStrict (by omega))

theorem merge (hLeft : Sound strict c left) (hRight : Sound strict c right) :
    Sound strict c (left.merge right) := by
  unfold Failure.merge
  split
  · exact hLeft
  · split
    · exact hRight
    · obtain ⟨label, hLabel⟩ := List.exists_mem_of_ne_nil _ hLeft.expects
      have hEither := Labels.mem_union.mpr (Or.inl (b := label ∈ right.expected.toList) hLabel)
      refine ⟨hLeft.spans, List.ne_nil_of_mem hEither, fun hConsumed => ?_, fun hStrict hFurther => ?_⟩
      · simp only [Bool.or_eq_true] at hConsumed
        rcases hConsumed with hConsumed | hConsumed
        · exact hLeft.moved hConsumed
        · have hFurther := hRight.moved hConsumed
          simp only
          omega
      · simp only [hLeft.committed hStrict hFurther, Bool.true_or]

end Failure.Sound

/-- An outcome of a parser that started at a place: a match ends within the
text, and a failure is sound. -/
inductive Outcome.Sound {α : Type} (strict : Prop) (c : Cursor) : Outcome α → Prop where
  | success (value : α) {next : Cursor} (h : c.Reaches next) : Sound strict c (.success value next)
  | failure {reason : Failure} (h : reason.Sound strict c) : Sound strict c (.failure reason)
  | halted (cause : Halt) : Sound strict c (.halted cause)

namespace Parser

/-- Only sound outcomes, wherever it starts. -/
def Sound (strict : Prop) (α : Type) (f : Cursor → Outcome α) : Prop :=
  ∀ c, (f c).Sound strict c

variable {strict : Prop} {α β : Type} {p : Parser α} {d : Nat}

theorem Sound.reaches (hp : Has (Sound strict) p) {c next : Cursor} {value : α}
    (h : p.step d c = .success value next) : c.Reaches next := by
  have hOutcome := hp d c
  rw [h] at hOutcome
  cases hOutcome with
  | success _ hNext => exact hNext

theorem Sound.failure (hp : Has (Sound strict) p) {c : Cursor} {reason : Failure}
    (h : p.step d c = .failure reason) : reason.Sound strict c := by
  have hOutcome := hp d c
  rw [h] at hOutcome
  cases hOutcome with
  | failure hReason => exact hReason

theorem sound_satisfy (accepts : Char → Bool) (label : String) :
    Has (Sound strict) (satisfy accepts label) := by
  intro d c
  simp only [satisfy]
  cases hNext : c.next? with
  | none => exact .failure (.here c label)
  | some found =>
      simp only
      split
      · exact .success _ (Cursor.reaches_next hNext)
      · exact .failure (.here c label)

theorem sound_string (word : String) : Has (Sound strict) (string word) := by
  intro d c
  simp only [string]
  cases hAfter : c.after? word.toList with
  | none => exact .failure (.here c _)
  | some next => exact .success word (Cursor.reaches_after hAfter)

theorem sound_endOfInput : Has (Sound strict) endOfInput := by
  intro d c
  simp only [endOfInput]
  cases c.rest with
  | nil => exact .success () (.refl c)
  | cons x text => exact .failure (.here c _)

theorem sound_notFollowedBy (label : String) (hp : Has (Sound strict) p) :
    Has (Sound strict) (notFollowedBy p label) := by
  intro d c
  have hInner := hp d c
  simp only [notFollowedBy]
  generalize p.step d c = outcome at hInner
  cases hInner with
  | success value hNext => exact .failure (.here c label)
  | failure hReason => exact .success () (.refl c)
  | halted cause => exact .halted cause

theorem sound_map (f : α → β) (hp : Has (Sound strict) p) : Has (Sound strict) (f <$> p) := by
  intro d c
  have hInner := hp d c
  rw [map_step]
  generalize p.step d c = outcome at hInner
  cases hInner with
  | success value hNext => exact .success (f value) hNext
  | failure hReason => exact .failure hReason
  | halted cause => exact .halted cause

theorem sound_bind {f : α → Parser β} (hp : Has (Sound strict) p)
    (hf : ∀ value, Has (Sound strict) (f value)) : Has (Sound strict) (Parser.bind p f) := by
  intro d start
  have hFirst := hp d start
  simp only [Parser.bind]
  generalize p.step d start = outcome at hFirst
  cases hFirst with
  | failure hReason => exact .failure hReason
  | halted cause => exact .halted cause
  | @success value reached hReached =>
      have hSecond := hf value d reached
      simp only
      generalize (f value).step d reached = outcome at hSecond
      cases hSecond with
      | success found hNext => exact .success found (hReached.trans hNext)
      | failure hReason => exact .failure (hReason.later hReached)
      | halted cause => exact .halted cause

theorem sound_label (name : String) (hp : Has (Sound strict) p) :
    Has (Sound strict) (label name p) := by
  intro d c
  have hInner := hp d c
  simp only [label]
  generalize p.step d c = outcome at hInner
  cases hInner with
  | success value hNext => exact .success value hNext
  | halted cause => exact .halted cause
  | failure hReason =>
      simp only
      split
      · exact .failure hReason
      · exact .failure (.here c name)

/-! Loops, along the rounds that they take. The cursor is some way behind the
place where the loop started. -/

section Loops

variable {operator : Parser (α → α → α)} {parsers others : List (Parser α)} {start c : Cursor}

theorem sound_runAll (hParsers : ∀ p ∈ parsers, Has (Sound strict) p) (found : List α)
    (hReached : start.Reaches c) : (runAll d start parsers c found).Sound strict start := by
  fun_induction runAll d start parsers c found with
  | case1 c found => exact .success _ hReached
  | case2 p rest c found value next hStep ih =>
      have hNext := Sound.reaches (hParsers p List.mem_cons_self) hStep
      exact ih (fun q hq => hParsers q (List.mem_cons_of_mem p hq)) (hReached.trans hNext)
  | case3 p rest c found reason hStep =>
      exact .failure (.later hReached (Sound.failure (hParsers p List.mem_cons_self) hStep))
  | case4 p rest c found cause hStep => exact .halted cause

theorem sound_tryEach (hOthers : ∀ q ∈ others, Has (Sound strict) q) {failed : Failure}
    (hFailed : failed.Sound strict c) : (tryEach d c failed others).Sound strict c := by
  fun_induction tryEach d c failed others with
  | case1 failed => exact .failure hFailed
  | case2 failed q rest reason hStep hCommitted =>
      exact .failure (Sound.failure (hOthers q List.mem_cons_self) hStep)
  | case3 failed q rest reason hStep hFree ih =>
      have hReason := Sound.failure (hOthers q List.mem_cons_self) hStep
      exact ih (fun r hr => hOthers r (List.mem_cons_of_mem q hr)) (hFailed.merge hReason)
  | case4 failed q rest hOther => exact hOthers q List.mem_cons_self d c

theorem sound_manyRounds (hp : Has (Sound strict) p) (rounds : List Char) (found : List α)
    (hReached : start.Reaches c) : (manyRounds p d rounds c found).Sound strict start := by
  fun_induction manyRounds p d rounds c found with
  | case1 | case2 | case6 => exact .halted _
  | case3 c found value next hStep hMoved round rounds ih =>
      exact ih (hReached.trans (Sound.reaches hp hStep))
  | case4 rounds c found reason hStep hCommitted =>
      exact .failure (.of_committed hReached (Sound.failure hp hStep) hCommitted)
  | case5 => exact .success _ hReached

theorem sound_chainRounds (hp : Has (Sound strict) p) (hOperator : Has (Sound strict) operator)
    (rounds : List Char) (left : α) (hReached : start.Reaches c) :
    (chainRounds p operator d start rounds c left).Sound strict start := by
  fun_induction chainRounds p operator d start rounds c left with
  | case1 | case4 | case7 => exact .halted _
  | case2 c left combine reached hFirst right next hSecond round rounds ih =>
      have hOperand := (Sound.reaches hOperator hFirst).trans (Sound.reaches hp hSecond)
      exact ih (hReached.trans hOperand)
  | case3 rounds c left combine reached hFirst reason hSecond =>
      have hBehind := hReached.trans (Sound.reaches hOperator hFirst)
      exact .failure (.later hBehind (Sound.failure hp hSecond))
  | case5 rounds c left reason hFirst hCommitted =>
      exact .failure (.of_committed hReached (Sound.failure hOperator hFirst) hCommitted)
  | case6 => exact .success _ hReached

end Loops

theorem sound_choice {others : List (Parser α)} (hp : Has (Sound strict) p)
    (hOthers : ∀ q ∈ others, Has (Sound strict) q) : Has (Sound strict) (choice p others) := by
  intro d c
  have hFirst := hp d c
  simp only [choice]
  generalize p.step d c = outcome at hFirst
  cases hFirst with
  | success value hNext => exact .success value hNext
  | halted cause => exact .halted cause
  | failure hReason =>
      simp only
      split
      · exact .failure hReason
      · exact sound_tryEach hOthers hReason

theorem sound_chainLeft {operator : Parser (α → α → α)} (hp : Has (Sound strict) p)
    (hOperator : Has (Sound strict) operator) : Has (Sound strict) (chainLeft p operator) := by
  intro d start
  have hFirst := hp d start
  simp only [chainLeft]
  generalize p.step d start = outcome at hFirst
  cases hFirst with
  | failure hReason => exact .failure hReason
  | halted cause => exact .halted cause
  | success value hNext => exact sound_chainRounds hp hOperator _ value hNext

theorem sound_inherited (strict : Prop) : Inherited (Sound strict) where
  halted cause := fun _ => .halted cause
  satisfy := sound_satisfy
  string := sound_string
  pure value := fun _ c => .success value (.refl c)
  endOfInput := sound_endOfInput
  notFollowedBy := sound_notFollowedBy
  map := sound_map
  bind := sound_bind
  label := sound_label
  sequence hParsers := fun _ c => sound_runAll hParsers [] (.refl c)
  choice := sound_choice
  many hp := fun _ c => sound_manyRounds hp c.rest [] (.refl c)
  chainLeft := sound_chainLeft

/-- An attempt takes back the commitment that the strict reading asks for, and
only that. -/
theorem sound_keptByAttempts (hNot : ¬ strict) : KeptByAttempts (Sound strict) := by
  intro α p hp d c
  have hInner := hp d c
  simp only [attempt]
  generalize p.step d c = outcome at hInner
  cases hInner with
  | success value hNext => exact .success value hNext
  | halted cause => exact .halted cause
  | failure hReason =>
      exact .failure
        { spans := hReason.spans
          expects := hReason.expects
          moved := fun hBad => absurd hBad Bool.false_ne_true
          committed := fun hStrict => absurd hStrict hNot }

end Parser

/-- Any parser that is put together from the basic ones moves forward within the
text. When it fails it has not gone back either and names something that it
expected; a failure is committed only behind the start, and without attempts
always there. -/
theorem parser_advances (description : Description) (limit : Nat) (text : List Char) (pos : Nat)
    (hPos : pos ≤ text.length) :
    match description.parser.runWithin limit text pos with
    | .success _ next =>
      pos ≤ next.offset ∧ next.offset ≤ text.length ∧ next = Cursor.place text next.offset
    | .failure reason =>
      pos ≤ reason.offset ∧ reason.offset ≤ text.length ∧ reason.expected.toList ≠ [] ∧
        (reason.consumed = true → pos < reason.offset) ∧
        (description.AttemptFree → pos < reason.offset → reason.consumed = true)
    | .halted _ => True := by
  have hSound := description.parser_has (Parser.sound_inherited description.AttemptFree)
    ((Classical.em description.AttemptFree).imp_right Parser.sound_keptByAttempts)
  have hOutcome := hSound limit (Cursor.place text pos)
  have hLength : (Cursor.place text pos).rest.length = text.length - pos := List.length_drop
  simp only [Parser.runWithin]
  generalize description.parser.step limit (Cursor.place text pos) = outcome at hOutcome
  cases hOutcome with
  | halted cause => trivial
  | success value hNext =>
      obtain ⟨n, hn, rfl⟩ := hNext
      rw [hLength] at hn
      have hPlace : (Cursor.place text pos).skip n = Cursor.place text (pos + n) :=
        Cursor.place_skip (by omega)
      rw [hPlace]
      exact ⟨Nat.le_add_right pos n, by show pos + n ≤ _; omega, rfl⟩
  | failure hReason =>
      have hHigh := hReason.spans.2
      rw [hLength] at hHigh
      have hStart : (Cursor.place text pos).offset = pos := rfl
      exact ⟨hReason.spans.1, by omega, hReason.expects, hReason.moved, hReason.committed⟩

/-- Digits in front of a semicolon, on a text without one: the failure is behind
the digits and committed. -/
theorem parser_advances_digits :
    ∃ reason, (Description.keepRight (.many1 .digit) (.char ";")).parser.runWithin 1 "12x".toList 0 =
      .failure reason ∧ 0 < reason.offset ∧ reason.offset ≤ 3 ∧ reason.consumed = true := by
  obtain ⟨reason, hRun, hOffset⟩ : ∃ reason,
      (Description.keepRight (.many1 .digit) (.char ";")).parser.runWithin 1 "12x".toList 0 =
        .failure reason ∧ reason.offset = 2 := ⟨_, rfl, rfl⟩
  have h := parser_advances (.keepRight (.many1 .digit) (.char ";")) 1 "12x".toList 0 (by decide)
  rw [hRun] at h
  obtain ⟨_, hHigh, _, _, hCommitted⟩ := h
  have hFree : (Description.keepRight (.many1 .digit) (.char ";")).AttemptFree := by
    simp [Description.AttemptFree, Description.many1, Description.AllAttemptFree, Description.digit,
      Description.char]
  exact ⟨reason, hRun, by omega, hHigh, hCommitted hFree (by omega)⟩

end Scriptlet
