import Scriptlet.Proofs.Descriptions
import Scriptlet.Proofs.Termination

namespace Scriptlet

namespace Parser

variable {α β : Type} {p : Parser α}

/-- No reference turns out to be without a definition, wherever the parser starts. -/
def Resolves (α : Type) (f : Cursor → Outcome α) : Prop :=
  ∀ c missing, f c ≠ .halted (.undefinedReference missing)

theorem Steady.resolves (hp : Steady p) : Has Resolves p := by
  intro d c missing h
  cases hp d c _ h

theorem resolves_endOfInput : Has Resolves endOfInput := by
  intro d c missing h
  simp only [endOfInput] at h
  split at h <;> cases h

theorem resolves_bind {f : α → Parser β} (hp : Has Resolves p)
    (hf : ∀ value, Has Resolves (f value)) : Has Resolves (Parser.bind p f) := by
  intro d c missing h
  rcases halted_of_bind h with hFirst | ⟨value, reached, hSecond⟩
  · exact hp d c missing hFirst
  · exact hf value d reached missing hSecond

theorem resolves_sequence {parsers : List (Parser α)} (hParsers : ∀ p ∈ parsers, Has Resolves p) :
    Has Resolves (sequence parsers) := by
  intro d c missing h
  obtain ⟨p, hp, reached, hStep⟩ := halted_of_runAll h
  exact hParsers p hp d reached missing hStep

theorem resolves_choice {others : List (Parser α)} (hp : Has Resolves p)
    (hOthers : ∀ q ∈ others, Has Resolves q) : Has Resolves (choice p others) := by
  intro d c missing h
  obtain ⟨q, hq, hStep⟩ := halted_of_choice h
  exact List.forall_mem_cons.mpr ⟨hp, hOthers⟩ q hq d c missing hStep

theorem resolves_many (hp : Has Resolves p) : Has Resolves (many p) := by
  intro d c missing h
  rcases halted_of_manyRounds h with ⟨reached, hStep⟩ | hEmpty
  · exact hp d reached missing hStep
  · cases hEmpty

theorem resolves_chainLeft {operator : Parser (α → α → α)} (hp : Has Resolves p)
    (hOperator : Has Resolves operator) : Has Resolves (chainLeft p operator) := by
  intro d c missing h
  rcases halted_of_chainLeft h with ⟨reached, hStep⟩ | ⟨reached, hStep⟩ | hEndless
  · exact hp d reached missing hStep
  · exact hOperator d reached missing hStep
  · cases hEndless

theorem resolves_preserved : Preserved Resolves where
  satisfy accepts label := (steady_satisfy accepts label).resolves
  string word := (steady_string word).resolves
  pure value := (steady_pure value).resolves
  endOfInput := resolves_endOfInput
  notFollowedBy _ hp := fun d c missing h => hp d c missing (halted_of_notFollowedBy h)
  map _ hp := fun d c missing h => hp d c missing (Outcome.halted_of_map h)
  bind := resolves_bind
  label _ hp := fun d c missing h => hp d c missing (halted_of_label h)
  sequence := resolves_sequence
  choice := resolves_choice
  many := resolves_many
  chainLeft := resolves_chainLeft

theorem resolves_keptByAttempts : KeptByAttempts Resolves := by
  intro α p hp d c missing h
  exact hp d c missing (halted_of_attempt h)

/-- A recursive parser is defined unless its definition is taken for a reference. -/
theorem resolves_recursive {name : String} {define : Parser α → Parser α}
    (hForm : ∀ missing, (define (selfReference name define 0)).form ≠ .undefined missing)
    (hDefine : ∀ self, Has Resolves self → Has Resolves (define self)) :
    Has Resolves (recursive name define) := by
  intro d
  unfold recursive
  split
  · rename_i missing hUndefined
    exact absurd hUndefined (hForm missing)
  · exact has_selfReference (fun _ _ h => by cases h) hDefine d d

/-- A definition that is taken for a reference leaves the name without one. -/
theorem recursive_of_undefined {name missing : String} {define : Parser α → Parser α}
    (h : (define (selfReference name define 0)).form = .undefined missing) :
    (recursive name define).form = .undefined missing ∧
      ∀ d c, (recursive name define).step d c = .halted (.undefinedReference missing) := by
  unfold recursive
  rw [h]
  exact ⟨rfl, fun _ _ => rfl⟩

end Parser

open Scriptlet.Parser

namespace Description

/-- The description is nothing but a reference, maybe under names of its own. -/
def IsReference : Description → Prop
  | reference _ | undefined _ => True
  | recursive _ body => body.IsReference
  | _ => False

mutual

/-- Every reference in the description is to one of the names that are being
defined around it, and no name is left without a definition. -/
def Scoped : Description → List String → Prop
  | satisfy _ _, _ | string _, _ | endOfInput, _ | pure _, _ | production _, _ | keyword _, _ => True
  | undefined _, _ => False
  | reference name, scope => name ∈ scope
  | recursive name p, scope => p.Scoped (name :: scope)
  | notFollowedBy p _, scope | map _ p, scope | label _ p, scope | attempt p, scope
  | many p, scope => p.Scoped scope
  | bind p f, scope => p.Scoped scope ∧ ∀ value, (f value).Scoped scope
  | keepRight p q, scope | keepLeft p q, scope | chainLeft p q, scope =>
    p.Scoped scope ∧ q.Scoped scope
  | sequence parts, scope => AllScoped parts scope
  | choice first others, scope => first.Scoped scope ∧ AllScoped others scope
  | between opening closing p, scope =>
    opening.Scoped scope ∧ closing.Scoped scope ∧ p.Scoped scope

/-- Every reference in any of the descriptions is to a name around them. -/
def AllScoped : List Description → List String → Prop
  | [], _ => True
  | p :: rest, scope => p.Scoped scope ∧ AllScoped rest scope

end

mutual

/-- No name in the description is defined as nothing but a reference. -/
def Substantial : Description → Prop
  | satisfy _ _ | string _ | endOfInput | pure _ | production _ | keyword _ | undefined _
  | reference _ => True
  | recursive _ p => ¬ p.IsReference ∧ p.Substantial
  | notFollowedBy p _ | map _ p | label _ p | attempt p | many p => p.Substantial
  | bind p f => p.Substantial ∧ ∀ value, (f value).Substantial
  | keepRight p q | keepLeft p q | chainLeft p q => p.Substantial ∧ q.Substantial
  | sequence parts => AllSubstantial parts
  | choice first others => first.Substantial ∧ AllSubstantial others
  | between opening closing p => opening.Substantial ∧ closing.Substantial ∧ p.Substantial

/-- No name in any of the descriptions is defined as nothing but a reference. -/
def AllSubstantial : List Description → Prop
  | [] => True
  | p :: rest => p.Substantial ∧ AllSubstantial rest

end

theorem exists_lookup {names : List (String × Parser Value)} {name : String}
    (h : name ∈ names.map Prod.fst) : ∃ p, (name, p) ∈ names ∧ names.lookup name = some p := by
  cases hFound : names.lookup name with
  | none =>
      obtain ⟨named, hNamed, hName⟩ := List.mem_map.mp h
      exact absurd hName.symm (by simpa using List.lookup_eq_none_iff.mp hFound named hNamed)
  | some p =>
      obtain ⟨before, after, rfl, _⟩ := List.lookup_eq_some_iff.mp hFound
      exact ⟨p, by simp, rfl⟩

/-- What is more than a reference is not taken for one. -/
theorem form_ne_undefined : ∀ (description : Description), ¬ description.IsReference →
    ∀ names missing, (description.toParser names).form ≠ .undefined missing
  | recursive name body, hBody, names, missing => by
      rw [toParser, Parser.recursive]
      split
      · rename_i other hForm
        exact absurd hForm (form_ne_undefined body hBody _ other)
      · rename_i form hForm
        exact fun h => hForm missing h
  | reference _, hBody, _, _ | undefined _, hBody, _, _ => absurd trivial hBody
  | satisfy _ _, _, _, _ | string _, _, _, _ | endOfInput, _, _, _ | pure _, _, _, _
  | notFollowedBy _ _, _, _, _ | map _ _, _, _, _ | bind _ _, _, _, _ | label _ _, _, _, _
  | keepRight _ _, _, _, _ | keepLeft _ _, _, _, _ | sequence _, _, _, _ | choice _ _, _, _, _
  | attempt _, _, _, _ | many _, _, _, _ | between _ _ _, _, _, _ | chainLeft _ _, _, _, _
  | keyword _, _, _, _ => by
      rw [toParser]
      exact nofun
  | production named, _, _, _ => by
      rw [toParser]
      cases named <;> exact nofun

mutual

/-- A description whose references are in scope stands for a parser that finds
their definitions, provided that the names around it do and that no name is
defined as nothing but a reference. The induction is on the description. -/
theorem toParser_resolves : ∀ (description : Description) (names : List (String × Parser Value)),
    (∀ named ∈ names, Has Resolves named.2) → description.Scoped (names.map Prod.fst) →
      description.Substantial → Has Resolves (description.toParser names)
  | satisfy accepts expected, _, _, _, _ =>
      resolves_preserved.map _ (resolves_preserved.satisfy accepts expected)
  | string word, _, _, _, _ => resolves_preserved.map _ (resolves_preserved.string word)
  | endOfInput, _, _, _, _ => resolves_preserved.map (fun _ => Value.absent) resolves_endOfInput
  | pure value, _, _, _, _ => resolves_preserved.pure value
  | notFollowedBy p expected, names, hNames, hScoped, hBody =>
      resolves_preserved.map _
        (resolves_preserved.notFollowedBy expected (toParser_resolves p names hNames hScoped hBody))
  | map f p, names, hNames, hScoped, hBody =>
      resolves_preserved.map f (toParser_resolves p names hNames hScoped hBody)
  | bind p f, names, hNames, hScoped, hBody =>
      resolves_bind (toParser_resolves p names hNames hScoped.1 hBody.1) fun value =>
        toParser_resolves (f value) names hNames (hScoped.2 value) (hBody.2 value)
  | label name p, names, hNames, hScoped, hBody =>
      resolves_preserved.label name (toParser_resolves p names hNames hScoped hBody)
  | keepRight p q, names, hNames, hScoped, hBody =>
      resolves_preserved.keepRight (toParser_resolves p names hNames hScoped.1 hBody.1)
        (toParser_resolves q names hNames hScoped.2 hBody.2)
  | keepLeft p q, names, hNames, hScoped, hBody =>
      resolves_preserved.keepLeft (toParser_resolves p names hNames hScoped.1 hBody.1)
        (toParser_resolves q names hNames hScoped.2 hBody.2)
  | sequence parts, names, hNames, hScoped, hBody =>
      resolves_preserved.map _ (resolves_sequence (toParsers_resolve parts names hNames hScoped hBody))
  | choice first others, names, hNames, hScoped, hBody =>
      resolves_choice (toParser_resolves first names hNames hScoped.1 hBody.1)
        (toParsers_resolve others names hNames hScoped.2 hBody.2)
  | attempt p, names, hNames, hScoped, hBody =>
      resolves_keptByAttempts (toParser_resolves p names hNames hScoped hBody)
  | many p, names, hNames, hScoped, hBody =>
      resolves_preserved.map _ (resolves_many (toParser_resolves p names hNames hScoped hBody))
  | between opening closing p, names, hNames, hScoped, hBody =>
      resolves_preserved.between (toParser_resolves opening names hNames hScoped.1 hBody.1)
        (toParser_resolves closing names hNames hScoped.2.1 hBody.2.1)
        (toParser_resolves p names hNames hScoped.2.2 hBody.2.2)
  | chainLeft operand operator, names, hNames, hScoped, hBody =>
      resolves_chainLeft (toParser_resolves operand names hNames hScoped.1 hBody.1)
        (resolves_preserved.map _ (toParser_resolves operator names hNames hScoped.2 hBody.2))
  | recursive name body, names, hNames, hScoped, hBody =>
      resolves_recursive (fun missing => form_ne_undefined body hBody.1 _ missing) fun self hSelf =>
        toParser_resolves body ((name, self) :: names)
          (List.forall_mem_cons.mpr ⟨hSelf, hNames⟩) hScoped hBody.2
  | reference name, names, hNames, hScoped, _ => by
      obtain ⟨p, hNamed, hFound⟩ := exists_lookup hScoped
      rw [toParser, hFound]
      exact hNames (name, p) hNamed
  | undefined _, _, _, hScoped, _ => absurd hScoped id
  | production named, _, _, _, _ => named.steady.resolves
  | keyword word, _, _, _, _ => resolves_preserved.map _ (Grammar.steady_keyword word).resolves

theorem toParsers_resolve : ∀ (parts : List Description) (names : List (String × Parser Value)),
    (∀ named ∈ names, Has Resolves named.2) → AllScoped parts (names.map Prod.fst) →
      AllSubstantial parts → ∀ p ∈ toParsers parts names, Has Resolves p
  | [], _, _, _, _ => fun _ hp => absurd hp List.not_mem_nil
  | p :: rest, names, hNames, hScoped, hBody => List.forall_mem_cons.mpr
      ⟨toParser_resolves p names hNames hScoped.1 hBody.1,
        toParsers_resolve rest names hNames hScoped.2 hBody.2⟩

end

/-- The names are those of definitions that are not complete yet: each stands for
a reference that is still without its definition. -/
def Pending (names : List (String × Parser Value)) : Prop :=
  ∀ named ∈ names, named.2.form = .undefined named.1

theorem pending_selfReference {names : List (String × Parser Value)} (h : Pending names)
    (name : String) (define : Parser Value → Parser Value) (levels : Nat) :
    Pending ((name, selfReference name define levels) :: names) := by
  refine List.forall_mem_cons.mpr ⟨?_, h⟩
  cases levels <;> rfl

/-- A description that is nothing but a reference is taken for one where the names
are pending. -/
theorem form_of_isReference : ∀ (description : Description) (names : List (String × Parser Value)),
    Pending names → description.Scoped (names.map Prod.fst) → description.IsReference →
      ∃ missing, (description.toParser names).form = .undefined missing
  | reference name, names, hPending, hScoped, _ => by
      obtain ⟨p, hNamed, hFound⟩ := exists_lookup hScoped
      rw [toParser, hFound]
      exact ⟨name, hPending (name, p) hNamed⟩
  | recursive name body, names, hPending, hScoped, hBody => by
      obtain ⟨missing, hForm⟩ := form_of_isReference body _
        (pending_selfReference hPending name (fun self => body.toParser ((name, self) :: names)) 0)
        hScoped hBody
      rw [toParser]
      exact ⟨missing, (recursive_of_undefined hForm).1⟩

/-- A name that is defined as nothing but a reference stays without definition. The
name that it stands for is not defined before the names inside its definition are,
and what it is defined as later is not looked at. -/
theorem undefined_of_isReference (name : String) {body : Description}
    {names : List (String × Parser Value)} (hPending : Pending names)
    (hScoped : body.Scoped (name :: names.map Prod.fst)) (hBody : body.IsReference) :
    ∃ missing, ∀ d c,
      ((recursive name body).toParser names).step d c = .halted (.undefinedReference missing) := by
  obtain ⟨missing, hForm⟩ := body.form_of_isReference _
    (pending_selfReference hPending name (fun self => body.toParser ((name, self) :: names)) 0)
    hScoped hBody
  rw [toParser]
  exact ⟨missing, (recursive_of_undefined hForm).2⟩

end Description

/-- A parser that is put together from the basic ones, in which every reference is
inside the definition of its name, never comes upon a reference without definition,
as long as no name is defined as nothing but a reference. -/
theorem references_resolve (description : Description) (hScoped : description.Scoped [])
    (hBody : description.Substantial) (limit : Nat) (text : List Char) (pos : Nat)
    (missing : String) :
    description.parser.runWithin limit text pos ≠ .halted (.undefinedReference missing) :=
  description.toParser_resolves [] (by simp) hScoped hBody limit (Cursor.place text pos) missing

/-- Groups within groups find the name of a group. -/
theorem references_resolve_groups :
    (Description.recursive "f" (.either
      (.between (.char "(") (.char ")") (.reference "f")) (.char "x"))).parser.runWithin 9
        "((x))".toList 0 ≠ .halted (.undefinedReference "f") := by
  refine references_resolve _ ?_ ?_ 9 _ 0 "f"
  · simp [Description.Scoped, Description.AllScoped, Description.either, Description.char]
  · simp [Description.Substantial, Description.AllSubstantial, Description.IsReference,
      Description.either, Description.char]

/-- A name that is defined as the one around it, behind a parenthesis: the parser
halts when it comes to it. With the name around it in its place it matches. -/
theorem second_name_undefined :
    let around (inner : Description) : Description :=
      .recursive "f" (.either (.keepRight (.char "(") inner) (.char "x"))
    (around (.recursive "g" (.reference "f"))).Scoped [] ∧
      (around (.recursive "g" (.reference "f"))).parser.run "(x".toList 0 =
        .halted (.undefinedReference "f") ∧
      (around (.reference "f")).parser.run "(x".toList 0 =
        .success (.text "x") (Cursor.place "(x".toList 2) := by
  refine ⟨?_, rfl, rfl⟩
  simp [Description.Scoped, Description.AllScoped, Description.either, Description.char]

end Scriptlet
