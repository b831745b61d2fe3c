import Mathlib.Data.List.TakeWhile

namespace Scriptlet.Text

/-- Free of control characters, line feeds and escapes among them. -/
def Clean (text : List Char) : Prop := ∀ c ∈ text, 32 ≤ c.toNat

theorem clean_nil : Clean [] := List.forall_mem_nil _

theorem clean_cons {c : Char} {text : List Char} : Clean (c :: text) ↔ 32 ≤ c.toNat ∧ Clean text :=
  List.forall_mem_cons

theorem clean_append {front back : List Char} : Clean (front ++ back) ↔ Clean front ∧ Clean back :=
  List.forall_mem_append

theorem clean_of_all {text : List Char} (h : text.all (32 ≤ ·.toNat) = true) : Clean text :=
  fun c hc => by simpa using List.all_eq_true.mp h c hc

theorem Clean.not_mem {text : List Char} (h : Clean text) {c : Char} (hControl : c.toNat < 32) :
    c ∉ text :=
  fun hMem => Nat.not_le_of_lt hControl (h c hMem)

section Cut

variable {mark : Char} {front back others behind : List Char}

theorem takeWhile_mark (h : mark ∉ front) :
    (front ++ mark :: back).takeWhile (· ≠ mark) = front := by
  rw [List.takeWhile_append_of_pos fun c hc => by simpa using ne_of_mem_of_not_mem hc h]
  simp

theorem dropWhile_mark (h : mark ∉ front) :
    (front ++ mark :: back).dropWhile (· ≠ mark) = mark :: back := by
  rw [List.dropWhile_append_of_pos fun c hc => by simpa using ne_of_mem_of_not_mem hc h]
  simp

theorem takeWhile_unmarked (h : mark ∉ front) : front.takeWhile (· ≠ mark) = front :=
  List.takeWhile_eq_self_iff.mpr fun c hc => by simpa using ne_of_mem_of_not_mem hc h

theorem dropWhile_unmarked (h : mark ∉ front) : front.dropWhile (· ≠ mark) = [] :=
  List.dropWhile_eq_nil_iff.mpr fun c hc => by simpa using ne_of_mem_of_not_mem hc h

/-- The first mark in a text is found again. -/
theorem append_mark_cancel (hFront : mark ∉ front) (hOthers : mark ∉ others)
    (h : front ++ mark :: back = others ++ mark :: behind) : front = others ∧ back = behind := by
  have hSame := congrArg (List.takeWhile (· ≠ mark)) h
  rw [takeWhile_mark hFront, takeWhile_mark hOthers] at hSame
  rw [hSame] at h
  exact ⟨hSame, (List.cons.inj (List.append_cancel_left h)).2⟩

/-- Lines that are ended by a mark which is in none of them can be told apart. -/
theorem flatMap_mark_cancel {lines texts : List (List Char)} (hLines : ∀ line ∈ lines, mark ∉ line)
    (hTexts : ∀ line ∈ texts, mark ∉ line)
    (h : lines.flatMap (· ++ [mark]) = texts.flatMap (· ++ [mark])) : lines = texts := by
  induction lines generalizing texts with
  | nil =>
      cases texts with
      | nil => rfl
      | cons text texts => simp at h
  | cons line lines ih =>
      cases texts with
      | nil => simp at h
      | cons text texts =>
          rw [List.forall_mem_cons] at hLines hTexts
          simp only [List.flatMap_cons, List.append_assoc, List.singleton_append] at h
          obtain ⟨rfl, hRest⟩ := append_mark_cancel hLines.1 hTexts.1 h
          rw [ih hLines.2 hTexts.2 hRest]

end Cut

/-- As many equal characters in front as there are of them in front. -/
theorem replicate_append_cancel {c : Char} {m n : Nat} {text other : List Char}
    (hText : text.head? ≠ some c) (hOther : other.head? ≠ some c)
    (h : List.replicate m c ++ text = List.replicate n c ++ other) : m = n ∧ text = other := by
  induction m generalizing n with
  | zero =>
      cases n with
      | zero => exact ⟨rfl, h⟩
      | succ n => exact absurd (congrArg List.head? h) hText
  | succ m ih =>
      cases n with
      | zero => exact absurd (congrArg List.head? h).symm hOther
      | succ n =>
          obtain ⟨rfl, hSame⟩ := ih (List.cons.inj h).2
          exact ⟨rfl, hSame⟩

end Scriptlet.Text
