import Scriptlet.Proofs.Completion
import Scriptlet.Proofs.OpenGroups

namespace Scriptlet

open Grammar

section Accepted

variable {limit : Nat} {filename : String} {entry : Entry} {ts us : List Token}
  {lead head mid text body : List Char}

theorem accepted_of_written (h : IsSentence limit filename entry ts) (hLead : IsBlank lead)
    (hNoBlank : NoBlank text) (hWritten : Written ts text []) :
    ∃ node, Source.parseWithin limit ⟨filename, lead ++ text⟩ entry = .ok node := by
  obtain ⟨node, hSentence⟩ := h
  exact ⟨node, Source.parseWithin_of_sentence hSentence rfl hLead hNoBlank hWritten⟩

theorem noBlank_exchange {new : List Char} (h : NoBlank (head ++ mid)) (hNew : NoBlank new) :
    NoBlank (head ++ new) := by
  cases head with
  | nil => exact hNew
  | cons x head => exact h

section Written

variable (hLead : IsBlank lead) (hNoBlank : NoBlank (head ++ mid)) (hWritten : Written ts (head ++ mid) mid)

include hLead hNoBlank hWritten

/-- What comes after the tokens of a sentence can be cut off. -/
theorem accepted_of_cut (h : IsSentence limit filename entry ts) :
    ∃ node, Source.parseWithin limit ⟨filename, lead ++ head⟩ entry = .ok node := by
  have hCut := hWritten.continued [] [] rfl (by decide) noBlank_nil
    (fun t _ x hx => absurd hx (by simp)) fun _ => rfl
  have hText := noBlank_exchange hNoBlank noBlank_nil
  simp only [List.append_nil] at hCut hText
  exact accepted_of_written h hLead hText hCut

/-- The tokens before a place can be continued after a blank. -/
theorem accepted_of_next {t : Token} (h : IsSentence limit filename entry (ts ++ t :: us)) :
    ∃ node, Source.parseWithin limit
      ⟨filename, (lead ++ head) ++ ' ' :: (t.text ++ ' ' :: spaced us)⟩ entry = .ok node := by
  have hValid : ∀ u ∈ t :: us, u.Valid := fun u hu => by
    obtain ⟨node, hSentence⟩ := h
    exact hSentence.valid u (List.mem_append_right ts hu)
  obtain ⟨hTail, hTailBlank⟩ := written_spaced hValid
  have hSpaced : spaced (t :: us) = t.text ++ ' ' :: spaced us := by simp [spaced]
  rw [hSpaced] at hTail hTailBlank
  by_cases hNone : ts = []
  · -- Without any token in front the blank belongs to those before the text.
    subst hNone
    generalize hText : head ++ mid = text at hWritten
    cases hWritten
    obtain rfl := List.append_left_eq_self.mp hText
    have hMoreLead : IsBlank (lead ++ [' ']) := by
      intro x hx
      rcases List.mem_append.mp hx with hx | hx
      · exact hLead x hx
      · rw [List.mem_singleton.mp hx]
        rfl
    have hAccepted := accepted_of_written h hMoreLead hTailBlank hTail
    simpa using hAccepted
  · have hHead := hWritten.continued [' '] _ rfl (by decide) hTailBlank
      (fun t _ x hx => Option.some.inj hx ▸ Token.endsBefore_of_isBlank (by decide))
      fun hNil => absurd hNil hNone
    have hText : head ≠ [] := by
      rintro rfl
      exact absurd (hWritten.length_lt hNone) (Nat.lt_irrefl _)
    have hHeadBlank : NoBlank (head ++ ([' '] ++ (t.text ++ ' ' :: spaced us))) := by
      cases head with
      | nil => exact absurd rfl hText
      | cons x head => exact hNoBlank
    have hAccepted := accepted_of_written h hLead hHeadBlank (hHead.append hTail)
    simpa using hAccepted

end Written

/-- An open string can be closed after a blank, which becomes part of it. -/
theorem accepted_of_quote (hLead : IsBlank lead) (hNoBlank : NoBlank (head ++ '"' :: body))
    (hWritten : Written ts (head ++ '"' :: body) ('"' :: body))
    (h : IsSentence limit filename entry (ts ++ .quotation (body ++ [' ']) :: us)) :
    ∃ node, Source.parseWithin limit
      ⟨filename, (lead ++ (head ++ '"' :: body)) ++ ' ' :: ('"' :: ' ' :: spaced us)⟩ entry =
        .ok node := by
  have hValid : ∀ u ∈ Token.quotation (body ++ [' ']) :: us, u.Valid := fun u hu => by
    obtain ⟨node, hSentence⟩ := h
    exact hSentence.valid u (List.mem_append_right ts hu)
  obtain ⟨hTail, hTailBlank⟩ := written_spaced hValid
  have hHead := hWritten.continued [] _ rfl (by decide) hTailBlank
    (fun t hEnds x hx => hEnds x hx) fun _ => rfl
  have hAccepted := accepted_of_written h hLead (noBlank_exchange hNoBlank hTailBlank)
    (hHead.append hTail)
  simpa [spaced, Token.text] using hAccepted

end Accepted

section Report

variable {limit : Nat} {filename : String} {entry : Entry} {ts : List Token}
  {lead head mid rest before : List Char} {labels : Labels} (hLead : IsBlank lead)
  (hNoBlank : NoBlank (head ++ mid)) (hWritten : Written ts (head ++ mid) mid)
  (hBefore : before ++ rest = lead ++ (head ++ mid))

include hLead hNoBlank hWritten hBefore

/-- Every label of tokens that can be completed names one that is accepted. -/
theorem report_of_viable (h : Viable (IsSentence limit filename entry) ts mid rest labels) :
    (∃ label, label ∈ labels.toList) ∧ ∀ label ∈ labels.toList, ∃ t continuation node,
      Names label t ∧ Source.parseWithin limit
        ⟨filename, before ++ ' ' :: (t ++ continuation)⟩ entry = .ok node := by
  cases h with
  | next hSome h =>
      rw [← List.append_assoc] at hBefore
      obtain rfl := List.append_cancel_right hBefore
      refine ⟨hSome, fun label hLabel => ?_⟩
      obtain ⟨t, us, hNames, hAll⟩ := h label hLabel
      obtain ⟨node, hNode⟩ := accepted_of_next hLead hNoBlank hWritten hAll
      exact ⟨t.text, _, node, hNames, hNode⟩
  | @quote us body hBody hAll =>
      rw [List.append_nil] at hBefore
      subst hBefore
      refine ⟨⟨_, Labels.mem_single.mpr rfl⟩, fun label hLabel => ?_⟩
      rw [Labels.mem_single.mp hLabel]
      obtain ⟨node, hNode⟩ := accepted_of_quote hLead hNoBlank hWritten hAll
      exact ⟨['"'], _, node, .itself (by decide), hNode⟩

theorem report_of_end (h : IsSentence limit filename entry ts) (hRest : rest = mid) :
    ∃ node, Source.parseWithin limit ⟨filename, before⟩ entry = .ok node := by
  rw [hRest, ← List.append_assoc] at hBefore
  obtain rfl := List.append_cancel_right hBefore
  exact accepted_of_cut hLead hNoBlank hWritten h

end Report

theorem Source.take_before {source : Source} {rest : List Char} (h : rest <:+ source.text) :
    source.text.take (source.before rest).offset ++ rest = source.text := by
  obtain ⟨before, hSplit⟩ := h
  rw [Source.offset_before, ← hSplit, List.length_append, Nat.add_sub_cancel, List.take_left]

/-- The groups open at the failure are those that a scan of the text finds. -/
theorem groups_lt {limit bound k : Nat} {filename : String} {entry : Entry} {ts : List Token}
    {lead head mid rest : List Char} {labels : Labels}
    (hOpen : ∀ n, openGroups ((lead ++ (head ++ mid)).take n) < bound) (hLead : IsBlank lead)
    (hLayout : Layout ts head) (hValid : ∀ t ∈ ts, t.Valid)
    (hStuck : SourceStuck limit filename entry k ts mid rest labels) : k < bound := by
  have hDepth := depth_lt_of_layout hOpen hLead hLayout hValid
  rwa [hStuck.depth_after] at hDepth

/-- An error tells the truth about where it is and what was expected there. The
text before it can be continued to something that the same entry accepts; for
each label that names a token some such token can come next, after a blank, and
the end is only expected where the text before is accepted as it is. -/
theorem error_report_sound (limit : Nat) (hLimit : 100 < limit) (source : Source) (entry : Entry)
    (hOpen : ∀ n, openGroups (source.text.take n) < 100) (error : ParseError)
    (hError : source.parseWithin limit entry = .error (.rejected error))
    (hNesting : error.message ≠ "input is nested too deeply to parse") :
    error.offset ≤ source.text.length ∧
      (∃ continuation node, Source.parseWithin limit
        ⟨source.filename, source.text.take error.offset ++ continuation⟩ entry = .ok node) ∧
      ∀ label ∈ error.expected,
        if label = "end of input" then
          ∃ node, Source.parseWithin limit
            ⟨source.filename, source.text.take error.offset⟩ entry = .ok node
        else
          ∃ t continuation node, Names label t ∧ Source.parseWithin limit
            ⟨source.filename, source.text.take error.offset ++ ' ' :: (t ++ continuation)⟩ entry =
              .ok node := by
  obtain ⟨lead, text, hText, hLead, hNoBlank⟩ := exists_run isBlank source.text
  have hOutcome : Source.ParseOutcome limit source entry text _ :=
    Source.parseWithin_outcome entry hText hLead hNoBlank
  rw [hError] at hOutcome
  cases hOutcome with
  | tooDeep => exact absurd rfl hNesting
  | @rejected k ts mid rest labels hStuck hWritten hRest =>
      obtain ⟨head, rfl, hLayout⟩ := hWritten.layout
      have hSuffix : rest <:+ source.text := by
        rw [hText]
        exact hRest.trans ((List.suffix_append head mid).trans (List.suffix_append lead _))
      have hOffset : (source.before rest).offset = source.text.length - rest.length :=
        Source.offset_before
      have hBefore := (Source.take_before hSuffix).trans hText
      rw [hText] at hOpen
      have hGroups := groups_lt hOpen hLead hLayout hWritten.valid hStuck
      have hDepth : k + 1 < limit := by omega
      refine ⟨by show (source.before rest).offset ≤ _; omega, ?_⟩
      show (∃ continuation node, Source.parseWithin limit ⟨source.filename,
        source.text.take (source.before rest).offset ++ continuation⟩ entry = .ok node) ∧
          ∀ label ∈ labels.toList, _
      rcases hStuck.viable hDepth with ⟨hSentence, hHere, rfl⟩ | hViable
      · obtain ⟨node, hNode⟩ := report_of_end hLead hNoBlank hWritten hBefore hSentence hHere
        refine ⟨⟨[], node, by rwa [List.append_nil]⟩, fun label hLabel => ?_⟩
        rw [if_pos (Labels.mem_single.mp hLabel)]
        exact ⟨node, hNode⟩
      · obtain ⟨⟨label, hLabel⟩, hReport⟩ := report_of_viable hLead hNoBlank hWritten hBefore hViable
        obtain ⟨t, continuation, node, _, hNode⟩ := hReport label hLabel
        refine ⟨⟨_, node, hNode⟩, fun label hLabel => ?_⟩
        obtain ⟨t, continuation, node, hNames, hNode⟩ := hReport label hLabel
        rw [if_neg hNames.ne_end]
        exact ⟨t, continuation, node, hNames, hNode⟩

/-- An open group may go on with an operand and nothing else, not even the end. -/
theorem error_report_sound_group :
    ∃ t continuation node, Names "number" t ∧ Source.parseWithin Parser.nestingLimit
      ⟨"<stdin>", "(".toList ++ ' ' :: (t ++ continuation)⟩ .expression = .ok node := by
  have hOpen : ∀ n, openGroups ("(".toList.take n) < 100 := by
    intro n
    cases n with
    | zero => decide
    | succ n =>
        rw [List.take_of_length_le (Nat.le_add_left 1 n)]
        decide
  obtain ⟨error, hError, hMessage, hOffset, hExpected⟩ : ∃ error : ParseError,
      Source.parseWithin Parser.nestingLimit ⟨"<stdin>", "(".toList⟩ .expression =
        .error (.rejected error) ∧ error.message ≠ "input is nested too deeply to parse" ∧
        error.offset = 1 ∧ "number" ∈ error.expected :=
    ⟨_, rfl, by decide +kernel, rfl, by decide +kernel⟩
  obtain ⟨_, _, hLabels⟩ := error_report_sound Parser.nestingLimit (by decide) ⟨"<stdin>", "(".toList⟩
    .expression hOpen error hError hMessage
  have hNumber := hLabels "number" hExpected
  rw [if_neg (by decide), hOffset] at hNumber
  exact hNumber

end Scriptlet
