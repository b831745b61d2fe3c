import Mathlib.Data.List.Nodup
import Scriptlet.Proofs.Parsing.Step

namespace Scriptlet

variable {tokens earlier later : List String} {text : List Char} {token other : String}

/-- A token is the longest of a list among those that the text begins with. -/
structure IsLongest (tokens : List String) (text : List Char) (token : String) : Prop where
  mem : token ∈ tokens
  stands : token.toList <+: text
  longest : ∀ other ∈ tokens, other.toList <+: text → other.length ≤ token.length

/-- Tokens in an order in which longer ones come first: they are distinct and not
empty, and none of them is a proper beginning of a later one. -/
structure LongestFirst (tokens : List String) : Prop where
  distinct : tokens.Nodup
  nonempty : "" ∉ tokens
  ordered : tokens.Pairwise fun earlier later =>
    ¬ (earlier.toList <+: later.toList ∧ earlier ≠ later)

instance (tokens : List String) : Decidable (LongestFirst tokens) :=
  decidable_of_iff
    (tokens.Nodup ∧ "" ∉ tokens ∧
      tokens.Pairwise fun earlier later => ¬ (earlier.toList <+: later.toList ∧ earlier ≠ later))
    ⟨fun ⟨hDistinct, hNonempty, hOrdered⟩ => ⟨hDistinct, hNonempty, hOrdered⟩,
      fun ⟨hDistinct, hNonempty, hOrdered⟩ => ⟨hDistinct, hNonempty, hOrdered⟩⟩

/-- A text begins with no two different longest tokens. -/
theorem IsLongest.unique (h : IsLongest tokens text token) (hOther : IsLongest tokens text other) :
    token = other := by
  have hLength : token.toList.length = other.toList.length := by
    rw [String.length_toList, String.length_toList]
    exact Nat.le_antisymm (hOther.longest token h.mem h.stands)
      (h.longest other hOther.mem hOther.stands)
  have hPrefix := List.prefix_of_prefix_length_le h.stands hOther.stands (Nat.le_of_eq hLength)
  exact String.toList_inj.mp (hPrefix.eq_of_length hLength)

namespace LongestFirst

theorem ne_nil (h : LongestFirst tokens) (hMem : token ∈ tokens) : token.toList ≠ [] := by
  intro hNil
  obtain rfl : token = "" := String.toList_inj.mp hNil
  exact h.nonempty hMem

/-- The first token that the text begins with is the longest one, since what comes
later is no extension of it. -/
theorem isLongest (h : LongestFirst (earlier ++ token :: later))
    (hEarlier : ∀ other ∈ earlier, ¬ other.toList <+: text) (hStands : token.toList <+: text) :
    IsLongest (earlier ++ token :: later) text token where
  mem := List.mem_append_right _ List.mem_cons_self
  stands := hStands
  longest other hOther hOtherStands := by
    have hLater := (List.pairwise_cons.mp (List.pairwise_append.mp h.ordered).2.1).1
    rcases List.mem_append.mp hOther with hOther | hOther
    · exact absurd hOtherStands (hEarlier other hOther)
    · rcases List.mem_cons.mp hOther with rfl | hOther
      · exact Nat.le_refl _
      · rw [← String.length_toList, ← String.length_toList]
        rcases List.prefix_or_prefix_of_prefix hStands hOtherStands with hLonger | hShorter
        · have hSame : token = other := Classical.byContradiction fun hDifferent =>
            hLater other hOther ⟨hLonger, hDifferent⟩
          exact hSame ▸ Nat.le_refl _
        · exact hShorter.length_le

/-- Where any token of a family stands, one comes first and is the longest. -/
theorem exists_first {ι : Type} {spell : ι → String} {family : List ι}
    (h : LongestFirst (family.map spell)) (hSome : ∃ i ∈ family, (spell i).toList <+: text) :
    ∃ earlier i later, family = earlier ++ i :: later ∧
      (∀ j ∈ earlier, ¬ (spell j).toList <+: text) ∧ IsLongest (family.map spell) text (spell i) := by
  obtain ⟨i, hi⟩ : ∃ i, family.find? (fun i => (spell i).toList <+: text) = some i := by
    rw [← Option.isSome_iff_exists, List.find?_isSome]
    simpa using hSome
  obtain ⟨hStands, earlier, later, rfl, hEarlier⟩ := List.find?_eq_some_iff_append.mp hi
  have hMisses : ∀ j ∈ earlier, ¬ (spell j).toList <+: text := by simpa using hEarlier
  refine ⟨earlier, i, later, rfl, hMisses, ?_⟩
  rw [List.map_append, List.map_cons] at h ⊢
  exact h.isLongest (by simpa using hMisses) (by simpa using hStands)

end LongestFirst

namespace Parser

variable {ι : Type} {spell : ι → String} {first i : ι} {others : List ι} {d : Nat} {c next : Cursor}

/-- The characters of one token of a family, whatever follows them. -/
def spelled (spell : ι → String) (i : ι) : Parser ι := string (spell i) *> Parser.pure i

theorem spelled_hit {text : List Char} (hWord : (spell i).toList ≠ [])
    (h : c.rest = (spell i).toList ++ text) :
    (spelled spell i).step d c = .success i (c.skip (spell i).toList.length) := by
  simp [spelled, keepRight_step, keepRight, string_hit hWord h, Parser.pure]

theorem spelled_miss (h : ¬ (spell i).toList <+: c.rest) :
    (spelled spell i).step d c = .failure (.here c (Text.quoted (spell i))) := by
  simp [spelled, keepRight_step, keepRight, string_miss h]

theorem choice_spelled_misses (h : ∀ i ∈ first :: others, ¬ (spell i).toList <+: c.rest) :
    Misses (choice (spelled spell first) (others.map (spelled spell))) d c := by
  refine choice_misses (misses_here (spelled_miss (h first List.mem_cons_self))) fun q hq => ?_
  obtain ⟨i, hi, rfl⟩ := List.mem_map.mp hq
  exact misses_here (spelled_miss (h i (List.mem_cons_of_mem _ hi)))

section Ordered

variable (hOrder : LongestFirst ((first :: others).map spell))

include hOrder

/-- A choice takes the first token that stands there, which the order makes the longest. -/
theorem choice_spelled_hit (hSome : ∃ i ∈ first :: others, (spell i).toList <+: c.rest) :
    ∃ i ∈ first :: others, IsLongest ((first :: others).map spell) c.rest (spell i) ∧
      (choice (spelled spell first) (others.map (spelled spell))).step d c =
        .success i (c.skip (spell i).toList.length) := by
  obtain ⟨earlier, i, later, hSplit, hEarlier, hLongest⟩ := hOrder.exists_first hSome
  have hMem : i ∈ first :: others := hSplit ▸ List.mem_append_right _ List.mem_cons_self
  obtain ⟨text, hText⟩ := hLongest.stands
  refine ⟨i, hMem, hLongest, choice_map_hit hSplit (fun j hj => ?_) ?_⟩
  · exact misses_here (spelled_miss (hEarlier j hj))
  · exact spelled_hit (hOrder.ne_nil hLongest.mem) hText.symm

/-- The longest token is all that a choice can take. -/
theorem choice_spelled_iff :
    (choice (spelled spell first) (others.map (spelled spell))).step d c = .success i next ↔
      i ∈ first :: others ∧ IsLongest ((first :: others).map spell) c.rest (spell i) ∧
        next = c.skip (spell i).toList.length := by
  constructor
  · intro h
    by_cases hSome : ∃ i ∈ first :: others, (spell i).toList <+: c.rest
    · obtain ⟨j, hj, hLongest, hStep⟩ := choice_spelled_hit (d := d) hOrder hSome
      rw [hStep] at h
      cases h
      exact ⟨hj, hLongest, rfl⟩
    · obtain ⟨reason, hMiss, _⟩ := choice_spelled_misses (d := d) fun i hi hStands =>
        hSome ⟨i, hi, hStands⟩
      rw [hMiss] at h
      cases h
  · rintro ⟨hi, hLongest, rfl⟩
    obtain ⟨j, hj, hOther, hStep⟩ := choice_spelled_hit (d := d) hOrder ⟨i, hi, hLongest.stands⟩
    obtain rfl := List.inj_on_of_nodup_map hOrder.distinct hj hi (hOther.unique hLongest)
    exact hStep

end Ordered

end Parser

end Scriptlet
