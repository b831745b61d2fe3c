namespace Scriptlet

/-- Insertion into an ascending list of distinct labels; a label that is there
already is not repeated. -/
def insertLabel (label : String) : List String → List String
  | [] => [label]
  | first :: rest =>
    if label < first then label :: first :: rest
    else if label = first then first :: rest
    else first :: insertLabel label rest

theorem mem_insertLabel {label other : String} {labels : List String} :
    other ∈ insertLabel label labels ↔ other = label ∨ other ∈ labels := by
  induction labels with
  | nil => simp [insertLabel]
  | cons first rest ih =>
    unfold insertLabel
    split
    · simp
    · split
      · rename_i hSame
        simp [hSame]
      · simp only [List.mem_cons, ih]
        grind

/-- What a failed parser was looking for. The labels are kept in ascending
order and without repetition, so that two sets of labels with the same members
are the same value and print alike. -/
structure Labels where
  toList : List String
  ascending : toList.Pairwise (· < ·)

theorem insertLabel_ascending {label : String} {labels : List String}
    (h : labels.Pairwise (· < ·)) : (insertLabel label labels).Pairwise (· < ·) := by
  induction labels with
  | nil => simp [insertLabel]
  | cons first rest ih =>
    rw [List.pairwise_cons] at h
    unfold insertLabel
    split
    · rename_i hLess
      refine List.pairwise_cons.mpr ⟨fun other hOther => ?_, List.pairwise_cons.mpr h⟩
      rcases List.mem_cons.mp hOther with hFirst | hRest
      · exact hFirst ▸ hLess
      · exact String.lt_trans hLess (h.1 other hRest)
    · split
      · exact List.pairwise_cons.mpr h
      · rename_i hNotLess hDifferent
        refine List.pairwise_cons.mpr ⟨fun other hOther => ?_, ih h.2⟩
        rcases mem_insertLabel.mp hOther with hLabel | hRest
        · subst hLabel
          by_cases hLess : first < other
          · exact hLess
          · exact absurd (String.le_antisymm (String.not_lt.mp hLess)
              (String.not_lt.mp hNotLess)) hDifferent
        · exact h.1 other hRest

namespace Labels

def empty : Labels := ⟨[], List.Pairwise.nil⟩

def insert (label : String) (labels : Labels) : Labels :=
  ⟨insertLabel label labels.toList, insertLabel_ascending labels.ascending⟩

def single (label : String) : Labels := insert label empty

def union (left right : Labels) : Labels :=
  left.toList.foldr insert right

theorem mem_insert {label other : String} {labels : Labels} :
    other ∈ (insert label labels).toList ↔ other = label ∨ other ∈ labels.toList :=
  mem_insertLabel

theorem mem_single {label other : String} : other ∈ (single label).toList ↔ other = label := by
  simp [single, mem_insert, empty]

theorem mem_union {left right : Labels} {label : String} :
    label ∈ (left.union right).toList ↔ label ∈ left.toList ∨ label ∈ right.toList := by
  unfold union
  induction left.toList with
  | nil => simp
  | cons first rest ih =>
    rw [List.foldr_cons, mem_insert, ih]
    simp [or_assoc]

end Labels

end Scriptlet
