import Scriptlet.Proofs.DumpFaithful

namespace Scriptlet

open Grammar

/-! The names in a tree. -/

/-- The variables that an expression refers to. -/
def Expr.references : Expr → List String
  | literal _ => []
  | var name => [name]
  | parens inner => inner.references
  | operation _ left right => left.references ++ right.references

namespace Stmt

/-- The variables that a statement declares. -/
def declarations : Stmt → List Variable
  | declaration v => [v]
  | expression _ => []

def references : Stmt → List String
  | declaration v => v.initializer.toList.flatMap Expr.references
  | expression e => e.references

end Stmt

namespace Node

/-- A tree as a sequence of statements, of which a tree of any other kind has one. -/
def statements : Node → List Stmt
  | program p => p.statements
  | stmt s => [s]
  | declared v => [.declaration v]
  | expr e => [.expression e]
  | literal value => [.expression (.literal value)]

def declarations (node : Node) : List Variable := node.statements.flatMap Stmt.declarations

def references (node : Node) : List String := node.statements.flatMap Stmt.references

end Node

/-! The names of trees that are read from a source. -/

/-- Truth values are constants of a tree, so that nothing refers to a variable of that name. -/
theorem Expr.WellFormed.reference {e : Expr} (h : e.WellFormed) :
    ∀ name ∈ e.references, IsName name.toList ∧ name ≠ "true" ∧ name ≠ "false" := by
  induction e with
  | literal value => exact fun name hName => absurd hName List.not_mem_nil
  | var word =>
      intro name hName
      rw [List.mem_singleton.mp hName]
      exact h
  | parens inner ih => exact ih h
  | operation op left right ihLeft ihRight =>
      intro name hName
      rcases List.mem_append.mp hName with hName | hName
      · exact ihLeft h.1 name hName
      · exact ihRight h.2.1 name hName

theorem Stmt.WellFormed.declared {s : Stmt} (h : s.WellFormed) :
    ∀ v ∈ s.declarations, v.WellFormed := by
  cases s with
  | declaration v =>
      intro w hw
      rw [List.mem_singleton.mp hw]
      exact h
  | expression e => exact fun v hv => absurd hv List.not_mem_nil

theorem Stmt.WellFormed.reference {s : Stmt} (h : s.WellFormed) :
    ∀ name ∈ s.references, IsName name.toList ∧ name ≠ "true" ∧ name ≠ "false" := by
  cases s with
  | declaration v =>
      intro name hName
      obtain ⟨e, he, hName⟩ := List.mem_flatMap.mp hName
      exact (h.2 e (Option.mem_toList.mp he)).reference name hName
  | expression e => exact Expr.WellFormed.reference h

namespace Node.WellFormed

variable {node : Node} (h : node.WellFormed)

include h

theorem statement : ∀ s ∈ node.statements, s.WellFormed := by
  cases node with
  | program p => exact h
  | stmt s | declared v | expr e | literal value =>
      intro s hs
      rw [List.mem_singleton.mp hs]
      exact h

theorem declared : ∀ v ∈ node.declarations, v.WellFormed := by
  intro v hv
  obtain ⟨s, hs, hv⟩ := List.mem_flatMap.mp hv
  exact (h.statement s hs).declared v hv

theorem reference :
    ∀ name ∈ node.references, IsName name.toList ∧ name ≠ "true" ∧ name ≠ "false" := by
  intro name hName
  obtain ⟨s, hs, hName⟩ := List.mem_flatMap.mp hName
  exact (h.statement s hs).reference name hName

end Node.WellFormed

/-- A name is an expression of its own. -/
theorem Source.parseWithin_name {limit : Nat} {filename name : String} (hLimit : 0 < limit)
    (hName : IsName name.toList) :
    Source.parseWithin limit ⟨filename, name.toList⟩ .expression = .ok (.expr (.ofWord name)) := by
  have hSentence : Sentence limit filename .expression [.word name.toList] (.expr (.ofWord name)) :=
    .expression (Expr.spelling_ofWord name) (Expr.wellFormed_ofWord hName)
      (by rwa [Expr.nesting_ofWord])
  have hNoBlank : NoBlank name.toList := by
    intro x hx
    exact not_isBlank_of_isNamePart (hName.isNamePart x (List.mem_of_mem_head? hx))
  have hRead : (Token.word name.toList).Read (name.toList ++ ([] ++ [])) [] :=
    .intro hName isBlank_nil noBlank_nil (Token.ends_word.mpr (by simp))
  rw [List.append_nil, List.append_nil] at hRead
  exact Source.parseWithin_of_sentence hSentence (List.nil_append _).symm isBlank_nil hNoBlank
    (.single hRead)

/-- A variable that a source declares can be referred to by its name, unless this is
the word of a truth value, which a declaration takes for a name like any other and an
expression does not. No expression of the source refers to a variable of such a name. -/
theorem declared_names_referable (limit depth : Nat) (source : Source) (entry : Entry) (node : Node)
    (hDepth : 0 < depth) (hParsed : source.parseWithin limit entry = .ok node) :
    (∀ v ∈ node.declarations, ∀ filename,
      Source.parseWithin depth ⟨filename, v.name.toList⟩ .expression = .ok (.expr (.var v.name)) ↔
        v.name ≠ "true" ∧ v.name ≠ "false") ∧
    ∀ name ∈ node.references, name ≠ "true" ∧ name ≠ "false" ∧ ∀ filename,
      Source.parseWithin depth ⟨filename, name.toList⟩ .expression = .ok (.expr (.var name)) := by
  have hForm : node.WellFormed := (Yielded.parse hParsed).wellFormed
  refine ⟨fun v hv filename => ?_, fun name hName => ?_⟩
  · rw [Source.parseWithin_name hDepth (hForm.declared v hv).1]
    rcases Expr.ofWord_cases v.name with hTrue | hFalse | ⟨hTrue, hFalse, hVar⟩
    · simp [hTrue]
    · simp [hFalse]
    · simp [hVar, hTrue, hFalse]
  · obtain ⟨hWord, hTrue, hFalse⟩ := hForm.reference name hName
    refine ⟨hTrue, hFalse, fun filename => ?_⟩
    rw [Source.parseWithin_name hDepth hWord, Expr.ofWord_of_ne hTrue hFalse]

/-- The name of a type, too, can be given to a variable and referred to. -/
theorem declared_names_referable_int :
    Source.parseWithin 2 ⟨"f", "let int = (x);".toList⟩ .declaration =
        .ok (.declared ⟨"int", none, some (.parens (.var "x"))⟩) ∧
      Source.parseWithin 1 ⟨"g", "int".toList⟩ .expression = .ok (.expr (.var "int")) ∧
      Source.parseWithin 1 ⟨"g", "x".toList⟩ .expression = .ok (.expr (.var "x")) := by
  have hParsed : Source.parseWithin 2 ⟨"f", "let int = (x);".toList⟩ .declaration =
      .ok (.declared ⟨"int", none, some (.parens (.var "x"))⟩) := rfl
  obtain ⟨hVariables, hReferences⟩ :=
    declared_names_referable 2 1 _ .declaration _ (by decide) hParsed
  refine ⟨hParsed, (hVariables ⟨"int", none, some (.parens (.var "x"))⟩ (by decide) "g").mpr (by decide), ?_⟩
  exact (hReferences "x" (by decide)).2.2 "g"

/-- A variable that is named like a truth value is declared, but it cannot be referred to. -/
theorem declared_true_not_referable :
    Source.parse ⟨"f", "let true;".toList⟩ .declaration = .ok (.declared ⟨"true", none, none⟩) ∧
      Source.parse ⟨"f", "true".toList⟩ .expression = .ok (.expr (.literal (.bool true))) ∧
      ¬ ∀ (source : Source) (entry : Entry) (node : Node), source.parse entry = .ok node →
        ∀ v ∈ node.declarations, Source.parse ⟨source.filename, v.name.toList⟩ .expression =
          .ok (.expr (.var v.name)) := by
  have hDeclared : Source.parse ⟨"f", "let true;".toList⟩ .declaration =
      .ok (.declared ⟨"true", none, none⟩) := rfl
  have hRead : Source.parse ⟨"f", "true".toList⟩ .expression =
      .ok (.expr (.literal (.bool true))) := rfl
  refine ⟨hDeclared, hRead, fun hAll => ?_⟩
  have hReferred := hAll _ .declaration _ hDeclared ⟨"true", none, none⟩ List.mem_cons_self
  exact nomatch hRead.symm.trans hReferred

end Scriptlet
