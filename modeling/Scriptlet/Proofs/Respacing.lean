import Scriptlet.Proofs.Driver
import Scriptlet.Proofs.Termination

namespace Scriptlet

open Grammar Scriptlet.Parser

/-- A chunk of two texts at once: a character that both have, or a run of blanks
of each of them. -/
inductive Chunk where
  | same (c : Char)
  | gap (left right : List Char)

namespace Chunk

def left : Chunk → List Char
  | same c => [c]
  | gap left _ => left

def right : Chunk → List Char
  | same c => [c]
  | gap _ right => right

def swap : Chunk → Chunk
  | same c => same c
  | gap left right => gap right left

def leftText (chunks : List Chunk) : List Char := chunks.flatMap left

def rightText (chunks : List Chunk) : List Char := chunks.flatMap right

/-- Outside string literals the blanks of both texts are in gaps, which are
empty in neither of them. Inside, where the number of quotes so far is odd,
everything is the same. -/
def Respaced : Bool → List Chunk → Prop
  | _, [] => True
  | inside, same c :: chunks =>
    (inside = true ∨ isBlank c = false) ∧ Respaced (if c = '"' then !inside else inside) chunks
  | inside, gap left right :: chunks =>
    inside = false ∧ (left ≠ [] ∧ IsBlank left) ∧ (right ≠ [] ∧ IsBlank right) ∧
      Respaced false chunks

/-- Whether texts are respaced is decided along their chunks. -/
instance decidableRespaced : (inside : Bool) → (chunks : List Chunk) → Decidable (Respaced inside chunks)
  | _, [] => .isTrue trivial
  | inside, same c :: chunks =>
    @instDecidableAnd _ _ (inferInstanceAs (Decidable (inside = true ∨ isBlank c = false)))
      (decidableRespaced (if c = '"' then !inside else inside) chunks)
  | inside, gap left right :: chunks =>
    @instDecidableAnd _ _ (inferInstanceAs (Decidable (inside = false)))
      (@instDecidableAnd _ _ (inferInstanceAs (Decidable (left ≠ [] ∧ IsBlank left)))
        (@instDecidableAnd _ _ (inferInstanceAs (Decidable (right ≠ [] ∧ IsBlank right)))
          (decidableRespaced false chunks)))

variable {inside : Bool} {chunks before after later skipped : List Chunk}

@[simp] theorem leftText_nil : leftText [] = [] := rfl

@[simp] theorem rightText_nil : rightText [] = [] := rfl

@[simp] theorem leftText_cons (p : Chunk) (chunks : List Chunk) :
    leftText (p :: chunks) = p.left ++ leftText chunks := rfl

@[simp] theorem rightText_cons (p : Chunk) (chunks : List Chunk) :
    rightText (p :: chunks) = p.right ++ rightText chunks := rfl

@[simp] theorem leftText_append (before after : List Chunk) :
    leftText (before ++ after) = leftText before ++ leftText after := List.flatMap_append

@[simp] theorem rightText_append (before after : List Chunk) :
    rightText (before ++ after) = rightText before ++ rightText after := List.flatMap_append

@[simp] theorem leftText_same (word : List Char) : leftText (word.map same) = word := by
  induction word with
  | nil => rfl
  | cons x word ih => simp [left, ih]

@[simp] theorem rightText_same (word : List Char) : rightText (word.map same) = word := by
  induction word with
  | nil => rfl
  | cons x word ih => simp [right, ih]

/-! The two texts may change places. -/

@[simp] theorem swap_swap (p : Chunk) : p.swap.swap = p := by
  cases p <;> rfl

@[simp] theorem leftText_swap (chunks : List Chunk) : leftText (chunks.map swap) = rightText chunks := by
  induction chunks with
  | nil => rfl
  | cons p chunks ih => cases p <;> simp [ih, left, right, swap]

@[simp] theorem rightText_swap (chunks : List Chunk) : rightText (chunks.map swap) = leftText chunks := by
  induction chunks with
  | nil => rfl
  | cons p chunks ih => cases p <;> simp [ih, left, right, swap]

theorem map_swap_swap (chunks : List Chunk) : (chunks.map swap).map swap = chunks := by
  have hSame : swap ∘ swap = id := by
    funext p
    exact swap_swap p
  rw [List.map_map, hSame, List.map_id]

theorem Respaced.swap (h : Respaced inside chunks) : Respaced inside (chunks.map Chunk.swap) := by
  induction chunks generalizing inside with
  | nil => trivial
  | cons p chunks ih =>
      cases p with
      | same c => exact ⟨h.1, ih h.2⟩
      | gap left right => exact ⟨h.1, h.2.2.1, h.2.1, ih h.2.2.2⟩

/-! No chunk is empty. -/

theorem Respaced.ne_nil (h : Respaced inside chunks) :
    ∀ p ∈ chunks, p.left ≠ [] ∧ p.right ≠ [] := by
  induction chunks generalizing inside with
  | nil => simp
  | cons p chunks ih =>
      cases p with
      | same c => exact List.forall_mem_cons.mpr ⟨⟨by simp [left], by simp [right]⟩, ih h.2⟩
      | gap left right => exact List.forall_mem_cons.mpr ⟨⟨h.2.1.1, h.2.2.1.1⟩, ih h.2.2.2⟩

/-- As many chunks as there are, both texts go on. -/
theorem length_pos_iff (h : ∀ p ∈ chunks, p.left ≠ [] ∧ p.right ≠ []) :
    0 < (leftText chunks).length ↔ 0 < (rightText chunks).length := by
  cases chunks with
  | nil => simp
  | cons p chunks =>
      obtain ⟨hLeft, hRight⟩ := h p List.mem_cons_self
      have hLeftLength := List.length_pos_iff.mpr hLeft
      have hRightLength := List.length_pos_iff.mpr hRight
      simp only [leftText_cons, rightText_cons, List.length_append]
      omega

theorem eq_nil_of_leftText (h : Respaced inside chunks) (hText : leftText chunks = []) :
    chunks = [] := by
  cases chunks with
  | nil => rfl
  | cons p chunks =>
      rw [leftText_cons] at hText
      exact absurd (List.append_eq_nil_iff.mp hText).1 (h.ne_nil p List.mem_cons_self).1

/-! What the first text begins with. -/

/-- A character that is in no gap. -/
theorem exists_same {x : Char} {text : List Char} (h : Respaced inside chunks)
    (hx : inside = true ∨ isBlank x = false) (hText : leftText chunks = x :: text) :
    ∃ later, chunks = same x :: later ∧ leftText later = text ∧
      Respaced (if x = '"' then !inside else inside) later := by
  cases chunks with
  | nil => simp at hText
  | cons p chunks =>
      cases p with
      | same c =>
          obtain ⟨rfl, rfl⟩ := List.cons.inj hText
          exact ⟨chunks, rfl, rfl, h.2⟩
      | gap blanks right =>
          obtain ⟨rfl, ⟨hNonempty, hBlank⟩, _⟩ := h
          cases blanks with
          | nil => exact absurd rfl hNonempty
          | cons y blanks =>
              obtain ⟨rfl, _⟩ := List.cons.inj hText
              have hVisible := hx.resolve_left Bool.false_ne_true
              rw [hBlank y List.mem_cons_self] at hVisible
              exact absurd hVisible (by decide)

/-- Characters without a quote among them that are in no gap. -/
theorem exists_word {word text : List Char} (h : Respaced inside chunks)
    (hWord : ∀ x ∈ word, x ≠ '"' ∧ (inside = true ∨ isBlank x = false))
    (hText : leftText chunks = word ++ text) :
    ∃ later, chunks = word.map same ++ later ∧ leftText later = text ∧ Respaced inside later := by
  induction word generalizing chunks with
  | nil => exact ⟨chunks, rfl, hText, h⟩
  | cons x word ih =>
      obtain ⟨hQuote, hx⟩ := hWord x List.mem_cons_self
      obtain ⟨chunks, rfl, hChunks, hLater⟩ := exists_same h hx hText
      rw [if_neg hQuote] at hLater
      obtain ⟨later, rfl, hRest⟩ := ih hLater (fun y hy => hWord y (List.mem_cons_of_mem x hy)) hChunks
      exact ⟨later, rfl, hRest⟩

/-- Some blanks at the beginning are no more than all blanks there. -/
theorem blanks_prefix {blanks rest run text : List Char} (hBlanks : IsBlank blanks)
    (hNoBlank : NoBlank text) (h : blanks ++ rest = run ++ text) :
    ∃ tail, run = blanks ++ tail ∧ rest = tail ++ text := by
  rcases List.append_eq_append_iff.mp h with ⟨tail, hRun, hRest⟩ | ⟨tail, hBlanksTail, hText⟩
  · exact ⟨tail, hRun, hRest⟩
  · cases tail with
    | nil => exact ⟨[], by simpa using hBlanksTail.symm, by simpa using hText.symm⟩
    | cons y tail =>
        have hBlank : isBlank y = true := hBlanks y (by rw [hBlanksTail]; simp)
        rw [hText] at hNoBlank
        have hVisible : isBlank y = false := hNoBlank y rfl
        rw [hBlank] at hVisible
        exact absurd hVisible (by decide)

/-- Blanks outside string literals are in gaps. -/
theorem exists_gaps {run text : List Char} (h : Respaced false chunks) (hRun : IsBlank run)
    (hNoBlank : NoBlank text) (hText : leftText chunks = run ++ text) :
    ∃ gaps later, chunks = gaps ++ later ∧ leftText gaps = run ∧ IsBlank (rightText gaps) ∧
      leftText later = text ∧ Respaced false later := by
  induction chunks generalizing run with
  | nil =>
      obtain ⟨rfl, rfl⟩ := List.append_eq_nil_iff.mp hText.symm
      exact ⟨[], [], rfl, rfl, isBlank_nil, rfl, trivial⟩
  | cons p chunks ih =>
      cases run with
      | nil => exact ⟨[], p :: chunks, rfl, rfl, isBlank_nil, hText, h⟩
      | cons x run =>
          have hBlank := hRun x List.mem_cons_self
          cases p with
          | same c =>
              obtain ⟨rfl, _⟩ := List.cons.inj hText
              have hVisible := h.1.resolve_left Bool.false_ne_true
              rw [hBlank] at hVisible
              exact absurd hVisible (by decide)
          | gap blanks others =>
              obtain ⟨_, ⟨_, hBlanks⟩, ⟨_, hOthers⟩, hLater⟩ := h
              obtain ⟨tail, hRunTail, hTail⟩ := blanks_prefix hBlanks hNoBlank hText
              have hTailBlank : IsBlank tail := fun y hy =>
                hRun y (by rw [hRunTail]; exact List.mem_append_right blanks hy)
              obtain ⟨gaps, later, rfl, hGaps, hRight, hRest, hSpaced⟩ := ih hLater hTailBlank hTail
              refine ⟨gap blanks others :: gaps, later, rfl, ?_, ?_, hRest, hSpaced⟩
              · rw [leftText_cons, hGaps, hRunTail]
                rfl
              · intro y hy
                rcases List.mem_append.mp hy with hy | hy
                · exact hOthers y hy
                · exact hRight y hy

theorem head_right (h : Respaced false chunks) (hNoBlank : NoBlank (leftText chunks)) :
    (rightText chunks).head? = (leftText chunks).head? := by
  cases chunks with
  | nil => rfl
  | cons p chunks =>
      cases p with
      | same c => rfl
      | gap blanks others =>
          obtain ⟨_, ⟨hNonempty, hBlank⟩, _⟩ := h
          cases blanks with
          | nil => exact absurd rfl hNonempty
          | cons y blanks =>
              have hNone : isBlank y = false := hNoBlank y rfl
              rw [hBlank y List.mem_cons_self] at hNone
              exact absurd hNone (by decide)

end Chunk

namespace Grammar

/-- Strings apart, no token has a blank or a quote in it. -/
theorem Token.Valid.visible {t : Token} (h : t.Valid) (hString : ∀ body, t ≠ .quotation body) :
    ∀ x ∈ t.text, x ≠ '"' ∧ isBlank x = false := by
  have hPart : ∀ {x : Char}, isNamePart x = true → x ≠ '"' ∧ isBlank x = false := by
    intro x hx
    refine ⟨?_, not_isBlank_of_isNamePart hx⟩
    rintro rfl
    exact absurd hx (by decide)
  have hDigit : ∀ {x : Char}, x.isDigit = true → x ≠ '"' ∧ isBlank x = false :=
    fun hx => hPart (isNamePart_of_isDigit hx)
  intro x hx
  cases t with
  | digits run => exact hDigit (h.2 x hx)
  | pointed whole fraction =>
      rcases List.mem_append.mp hx with hx | hx
      · exact hDigit (h.1.2 x hx)
      · rcases List.mem_cons.mp hx with rfl | hx
        · decide
        · exact hDigit (h.2 x hx)
  | quotation body => exact absurd rfl (hString body)
  | word name => exact hPart (IsName.isNamePart h x hx)
  | operator op =>
      have hNone := operator_all (fun y => y != '"' && !isBlank y) (by decide) op x hx
      simpa using hNone
  | mark y =>
      obtain rfl := List.mem_singleton.mp hx
      have hMarks : marks.all (fun y => y != '"' && !isBlank y) = true := by decide
      simpa using List.all_eq_true.mp hMarks x h

end Grammar

namespace Chunk

variable {chunks : List Chunk} {c c' : Cursor}

/-- Places of the two texts with the same chunks in front of them. They are not
inside string literals. -/
def Beside (chunks : List Chunk) (c c' : Cursor) : Prop :=
  ∃ before after, chunks = before ++ after ∧ Respaced false after ∧
    (c.rest = leftText after ∧ c.offset = (leftText before).length) ∧
    (c'.rest = rightText after ∧ c'.offset = (rightText before).length)

/-- Offsets that correspond: the same chunks are in front of them. -/
def Across (chunks : List Chunk) (i i' : Nat) : Prop :=
  ∃ before after, chunks = before ++ after ∧ i = (leftText before).length ∧
    i' = (rightText before).length

theorem Beside.across (h : Beside chunks c c') : Across chunks c.offset c'.offset := by
  obtain ⟨before, after, hChunks, _, ⟨_, hOffset⟩, _, hOffset'⟩ := h
  exact ⟨before, after, hChunks, hOffset, hOffset'⟩

theorem Beside.swap (h : Beside chunks c c') : Beside (chunks.map Chunk.swap) c' c := by
  obtain ⟨before, after, rfl, hSpaced, hLeft, hRight⟩ := h
  refine ⟨before.map Chunk.swap, after.map Chunk.swap, List.map_append, hSpaced.swap, ?_, ?_⟩
  · simpa using hRight
  · simpa using hLeft

theorem Beside.of_swap (h : Beside (chunks.map Chunk.swap) c' c) : Beside chunks c c' := by
  have hBack := h.swap
  rwa [map_swap_swap] at hBack

theorem Across.swap {i i' : Nat} (h : Across chunks i i') : Across (chunks.map Chunk.swap) i' i := by
  obtain ⟨before, after, rfl, hLeft, hRight⟩ := h
  exact ⟨before.map Chunk.swap, after.map Chunk.swap, List.map_append, by simpa using hRight,
    by simpa using hLeft⟩

theorem Across.of_swap {i i' : Nat} (h : Across (chunks.map Chunk.swap) i' i) : Across chunks i i' := by
  have hBack := h.swap
  rwa [map_swap_swap] at hBack

/-- Correspondence keeps the order, since both texts go on with every chunk. -/
theorem across_ordered (h : Respaced false chunks) {i i' j j' : Nat} (hFirst : Across chunks i i')
    (hSecond : Across chunks j j') : i < j ↔ i' < j' := by
  obtain ⟨before, after, hChunks, rfl, rfl⟩ := hFirst
  obtain ⟨front, back, hSplit, rfl, rfl⟩ := hSecond
  rcases List.prefix_or_prefix_of_prefix ⟨after, hChunks.symm⟩ ⟨back, hSplit.symm⟩ with
    ⟨more, rfl⟩ | ⟨more, rfl⟩
  · have hMore : 0 < (leftText more).length ↔ 0 < (rightText more).length :=
      length_pos_iff fun p hp => h.ne_nil p (by rw [hSplit]; simp [hp])
    simp only [leftText_append, rightText_append, List.length_append]
    omega
  · simp only [leftText_append, rightText_append, List.length_append]
    omega

/-- Parts that are passed take both texts to the place where the later ones
begin. -/
theorem beside_before {before skipped later : List Chunk} (hChunks : chunks = before ++ (skipped ++ later))
    (hSpaced : Respaced false later)
    (hLeft : c.rest = leftText (skipped ++ later) ∧ c.offset = (leftText before).length)
    (hRight : c'.rest = rightText (skipped ++ later) ∧ c'.offset = (rightText before).length) :
    Beside chunks (c.before (leftText later)) (c'.before (rightText later)) := by
  have hSuffix : leftText later <:+ c.rest := by
    rw [hLeft.1, leftText_append]
    exact List.suffix_append _ _
  have hSuffix' : rightText later <:+ c'.rest := by
    rw [hRight.1, rightText_append]
    exact List.suffix_append _ _
  refine ⟨before ++ skipped, later, by rw [hChunks, List.append_assoc], hSpaced,
    ⟨Cursor.rest_before hSuffix, ?_⟩, Cursor.rest_before hSuffix', ?_⟩
  · rw [Cursor.offset_before, hLeft.1, hLeft.2]
    simp
  · rw [Cursor.offset_before, hRight.1, hRight.2]
    simp

/-- After a token and the blanks behind it both texts go on alike. -/
theorem exists_after_token {t : Token} {after : List Chunk} {mid : List Char}
    (h : Respaced false after) (hRead : t.Read (leftText after) mid) :
    ∃ skipped later, after = skipped ++ later ∧ Respaced false later ∧ leftText later = mid ∧
      t.Read (rightText after) (rightText later) := by
  have hValid := hRead.valid
  obtain ⟨run, hRun, hText, hEnds⟩ := hRead.split
  -- The token itself is the same in both texts, whether it is a string or not.
  obtain ⟨rest, rfl, hRest, hSpaced⟩ : ∃ rest, after = t.text.map same ++ rest ∧
      leftText rest = run ++ mid ∧ Respaced false rest := by
    by_cases hString : ∃ body, t = .quotation body
    · obtain ⟨body, rfl⟩ := hString
      have hBody : ∀ x ∈ body, x ≠ '"' ∧ (true = true ∨ isBlank x = false) := by
        intro x hx
        refine ⟨?_, .inl rfl⟩
        rintro rfl
        exact hValid hx
      have hSpelled : leftText after = '"' :: (body ++ '"' :: (run ++ mid)) := by
        simpa [Token.text] using hText
      obtain ⟨inner, rfl, hInner, hInside⟩ := exists_same h (.inr (by decide)) hSpelled
      obtain ⟨last, rfl, hLast, hStill⟩ := exists_word hInside hBody hInner
      obtain ⟨rest, rfl, hRest, hOutside⟩ := exists_same hStill (.inl rfl) hLast
      exact ⟨rest, by simp [Token.text], hRest, hOutside⟩
    · have hVisible := hValid.visible fun body hBody => hString ⟨body, hBody⟩
      exact exists_word h (fun x hx => ⟨(hVisible x hx).1, .inr (hVisible x hx).2⟩) hText
  obtain ⟨gaps, later, rfl, hGaps, hBlank, hLater, hSpaced'⟩ :=
    exists_gaps hSpaced hRun hRead.noBlank hRest
  have hNoBlank : NoBlank (leftText later) := hLater ▸ hRead.noBlank
  have hHead : (rightText later).head? = (leftText later).head? := head_right hSpaced' hNoBlank
  refine ⟨t.text.map same ++ gaps, later, by simp, hSpaced', hLater, ?_⟩
  have hApart : rightText gaps ≠ [] ∨ t.Ends (rightText later) := by
    cases hRightGaps : rightText gaps with
    | cons x blanks => exact .inl (List.cons_ne_nil x blanks)
    | nil =>
        have hNone := length_pos_iff fun p hp => hSpaced.ne_nil p (List.mem_append_left later hp)
        rw [hGaps, hRightGaps] at hNone
        have hRunNil : run = [] := List.length_eq_zero_iff.mp (by simpa using hNone)
        rw [hRunNil, ← hLater] at hEnds
        refine .inr fun x hx => hEnds x ?_
        rw [hHead] at hx
        exact hx
  have hRight := Token.read_of_blanks hValid hBlank
    (fun x hx => hNoBlank x (hHead ▸ hx)) hApart
  simpa using hRight

/-- The places of two texts that differ in gaps. -/
def alignment (chunks : List Chunk) (h : Respaced false chunks) : Alignment where
  cursors := Beside chunks
  offsets := Across chunks
  offset := Beside.across
  ordered := across_ordered h

theorem beside_token {t : Token} {mid : List Char} (h : Beside chunks c c') (hRead : t.Read c.rest mid) :
    ∃ mid', t.Read c'.rest mid' ∧ Beside chunks (c.before mid) (c'.before mid') := by
  obtain ⟨before, after, hChunks, hSpaced, ⟨hRest, hOffset⟩, hRest', hOffset'⟩ := h
  rw [hRest] at hRead
  obtain ⟨skipped, later, rfl, hLater, rfl, hRead'⟩ := exists_after_token hSpaced hRead
  rw [← hRest'] at hRead'
  exact ⟨rightText later, hRead', beside_before hChunks hLater ⟨hRest, hOffset⟩ ⟨hRest', hOffset'⟩⟩

/-- What is inside a string that is never closed is the same in both texts. -/
theorem beside_quote {body : List Char} (h : Beside chunks c c') (hText : c.rest = '"' :: body)
    (hBody : '"' ∉ body) : c'.rest = '"' :: body ∧
      Across chunks (c.before []).offset (c'.before []).offset := by
  obtain ⟨before, after, hChunks, hSpaced, ⟨hRest, hOffset⟩, hRest', hOffset'⟩ := h
  rw [hRest] at hText
  have hInner : ∀ x ∈ body, x ≠ '"' ∧ (true = true ∨ isBlank x = false) := by
    intro x hx
    refine ⟨?_, .inl rfl⟩
    rintro rfl
    exact hBody hx
  obtain ⟨inner, rfl, hText, hInside⟩ := exists_same hSpaced (.inr (by decide)) hText
  rw [← List.append_nil body] at hText
  obtain ⟨last, rfl, hLast, hStill⟩ := exists_word hInside hInner hText
  obtain rfl := eq_nil_of_leftText hStill hLast
  refine ⟨by simpa [right] using hRest', chunks, [], (List.append_nil chunks).symm, ?_, ?_⟩
  · rw [Cursor.offset_before, hOffset, hRest, hChunks]
    simp
  · rw [Cursor.offset_before, hOffset', hRest', hChunks]
    simp

theorem beside_ending (h : Beside chunks c c') (hEnd : c.rest = []) : c'.rest = [] := by
  obtain ⟨before, after, _, hSpaced, ⟨hRest, _⟩, hRest', _⟩ := h
  rw [hRest] at hEnd
  rw [hRest', eq_nil_of_leftText hSpaced hEnd]
  rfl

theorem alignment_faithful (h : Respaced false chunks) : (alignment chunks h).Faithful where
  forth := {
    token := beside_token
    quote := fun hSame hText hBody =>
      ⟨_, (beside_quote hSame hText hBody).1, hBody, (beside_quote hSame hText hBody).2⟩
    ending := beside_ending }
  back := {
    token := fun hSame hRead => by
      obtain ⟨mid', hRead', hNext⟩ := beside_token (Beside.swap hSame) hRead
      exact ⟨mid', hRead', hNext.of_swap⟩
    quote := fun hSame hText hBody => by
      obtain ⟨hText', hEnds⟩ := beside_quote (Beside.swap hSame) hText hBody
      exact ⟨_, hText', hBody, hEnds.of_swap⟩
    ending := fun hSame hEnd => beside_ending (Beside.swap hSame) hEnd }

end Chunk

open Chunk

/-- Blanks outside string literals make no difference, whichever they are, as
long as there are some in both texts: either the same tree is read from both, or
both are rejected at places that correspond, for want of the same. -/
theorem respacing_insensitive (limit : Nat) (filename : String) (entry : Entry) (chunks : List Chunk)
    (h : Respaced false chunks) :
    (∃ node, Source.parseWithin limit ⟨filename, leftText chunks⟩ entry = .ok node ∧
      Source.parseWithin limit ⟨filename, rightText chunks⟩ entry = .ok node) ∨
    ∃ error error', Source.parseWithin limit ⟨filename, leftText chunks⟩ entry =
        .error (.rejected error) ∧
      Source.parseWithin limit ⟨filename, rightText chunks⟩ entry = .error (.rejected error') ∧
      error.expected = error'.expected ∧ Across chunks error.offset error'.offset := by
  obtain ⟨lead, text, hText, hLead, hNoBlank⟩ := exists_run isBlank (leftText chunks)
  obtain ⟨gaps, later, hChunks, hGaps, hBlank, hLater, hSpaced⟩ := exists_gaps h hLead hNoBlank hText
  have hStart : NoBlank (leftText later) := hLater ▸ hNoBlank
  have hStart' : NoBlank (rightText later) := fun x hx => hStart x (head_right hSpaced hStart ▸ hx)
  have hFirst : Source.firstToken limit ⟨filename, leftText chunks⟩ = .ok _ :=
    Source.firstToken_of_lead (hChunks ▸ leftText_append gaps later) (hGaps ▸ hLead) hStart
  have hFirst' : Source.firstToken limit ⟨filename, rightText chunks⟩ = .ok _ :=
    Source.firstToken_of_lead (hChunks ▸ rightText_append gaps later) hBlank hStart'
  have hSplit : chunks = [] ++ (gaps ++ later) := hChunks
  have hBeside : Beside chunks (Source.before ⟨filename, leftText chunks⟩ (leftText later))
      (Source.before ⟨filename, rightText chunks⟩ (rightText later)) :=
    beside_before hSplit hSpaced ⟨hChunks ▸ rfl, rfl⟩ ⟨hChunks ▸ rfl, rfl⟩
  have hName : Source.filename ⟨filename, leftText chunks⟩ =
      Source.filename ⟨filename, rightText chunks⟩ := rfl
  have hLinked := Source.parseWithin_linked (alignment_faithful h) hName hFirst hFirst' hBeside entry
  have hNoHalt := Source.parseWithin_ok_or_rejected limit ⟨filename, leftText chunks⟩ entry
  generalize Source.parseWithin limit ⟨filename, leftText chunks⟩ entry = result,
    Source.parseWithin limit ⟨filename, rightText chunks⟩ entry = result' at hLinked hNoHalt
  cases hLinked with
  | ok hSame =>
      obtain rfl := hSame
      exact .inl ⟨_, rfl, rfl⟩
  | rejected hReason =>
      exact .inr ⟨_, _, rfl, rfl, congrArg Labels.toList hReason.expected, hReason.offset⟩
  | tooDeep hCursors => exact .inr ⟨_, _, rfl, rfl, rfl, Beside.across hCursors⟩
  | halted cause => simp at hNoHalt

/-- Blanks around a string may be others, but not those inside. -/
theorem respacing_insensitive_string :
    Source.parseWithin 1 ⟨"<stdin>", "x\n\t+ \"a b\"".toList⟩ .expression =
      .ok (.expr (.operation .add (.var "x") (.literal (.string "a b")))) := by
  have hLeft : Source.parseWithin 1 ⟨"<stdin>", "x +\t \"a b\"".toList⟩ .expression =
      .ok (.expr (.operation .add (.var "x") (.literal (.string "a b")))) := by
    rfl
  have hTexts : leftText [.same 'x', .gap [' '] ['\n', '\t'], .same '+', .gap ['\t', ' '] [' '],
      .same '"', .same 'a', .same ' ', .same 'b', .same '"'] = "x +\t \"a b\"".toList := by
    decide
  rcases respacing_insensitive 1 "<stdin>" .expression
      [.same 'x', .gap [' '] ['\n', '\t'], .same '+', .gap ['\t', ' '] [' '],
        .same '"', .same 'a', .same ' ', .same 'b', .same '"'] (by decide) with
    ⟨node, hNode, hRight⟩ | ⟨error, _, hError, _⟩
  · rw [hTexts, hLeft] at hNode
    cases hNode
    exact hRight
  · rw [hTexts, hLeft] at hError
    cases hError

end Scriptlet
