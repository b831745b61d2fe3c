import Scriptlet.Proofs.Parsing.Step

namespace Scriptlet.Parser

/-- What a parser does with any depth left has a property. The property is one
of the outcomes at all places together, so that it may compare places. -/
def Has (Q : (α : Type) → (Cursor → Outcome α) → Prop) {α : Type} (p : Parser α) : Prop :=
  ∀ d, Q α (p.step d)

/-- A property that the basic parsers have and that combining them keeps.
Attempts are left out here, since there are properties that they break, and so
are references, which may be without a definition. -/
structure Preserved (Q : (α : Type) → (Cursor → Outcome α) → Prop) : Prop where
  satisfy : ∀ accepts label, Has Q (satisfy accepts label)
  string : ∀ word, Has Q (string word)
  pure : ∀ {α : Type} (value : α), Has Q (Parser.pure value)
  endOfInput : Has Q endOfInput
  notFollowedBy : ∀ {α : Type} {p : Parser α} (label : String), Has Q p → Has Q (notFollowedBy p label)
  map : ∀ {α β : Type} {p : Parser α} (f : α → β), Has Q p → Has Q (f <$> p)
  bind : ∀ {α β : Type} {p : Parser α} {f : α → Parser β}, Has Q p → (∀ value, Has Q (f value)) →
    Has Q (Parser.bind p f)
  label : ∀ {α : Type} {p : Parser α} (name : String), Has Q p → Has Q (label name p)
  sequence : ∀ {α : Type} {parsers : List (Parser α)}, (∀ p ∈ parsers, Has Q p) →
    Has Q (sequence parsers)
  choice : ∀ {α : Type} {p : Parser α} {others : List (Parser α)}, Has Q p →
    (∀ q ∈ others, Has Q q) → Has Q (choice p others)
  many : ∀ {α : Type} {p : Parser α}, Has Q p → Has Q (many p)
  chainLeft : ∀ {α : Type} {p : Parser α} {operator : Parser (α → α → α)}, Has Q p →
    Has Q operator → Has Q (chainLeft p operator)

/-- A preserved property that giving up has as well, for whatever reason. -/
structure Inherited (Q : (α : Type) → (Cursor → Outcome α) → Prop) : Prop extends Preserved Q where
  halted : ∀ {α : Type} (cause : Halt), Q α fun _ => .halted cause

/-- An attempt keeps the property as well. -/
def KeptByAttempts (Q : (α : Type) → (Cursor → Outcome α) → Prop) : Prop :=
  ∀ {α : Type} {p : Parser α}, Has Q p → Has Q (attempt p)

namespace Preserved

variable {Q : (α : Type) → (Cursor → Outcome α) → Prop} (h : Preserved Q) {α β γ : Type}
  {p : Parser α} {q : Parser β} {r : Parser γ}

include h

/-! Sequences. -/

theorem pair (hp : Has Q p) (hq : Has Q q) : Has Q (Parser.pair p q) := by
  intro d
  rw [pair_eq_bind]
  exact h.bind hp (fun _ => h.map _ hq) d

theorem keepRight (hp : Has Q p) (hq : Has Q q) : Has Q (p *> q) := by
  intro d
  rw [funext (keepRight_eq_pair p q d)]
  exact h.map _ (h.pair hp hq) d

theorem keepLeft (hp : Has Q p) (hq : Has Q q) : Has Q (p <* q) := by
  intro d
  rw [funext (keepLeft_eq_pair p q d)]
  exact h.map _ (h.pair hp hq) d

theorem triple (hp : Has Q p) (hq : Has Q q) (hr : Has Q r) : Has Q (Parser.triple p q r) := by
  intro d
  rw [funext (triple_eq_pair p q r d)]
  exact h.map _ (h.pair (h.pair hp hq) hr) d

theorem between (hp : Has Q p) (hq : Has Q q) (hr : Has Q r) : Has Q (Parser.between p q r) := by
  intro d
  rw [funext (between_eq_pair p q r d)]
  exact h.map _ (h.pair (h.pair hp hr) hq) d

theorem many1 (hp : Has Q p) : Has Q (Parser.many1 p) := h.map _ (h.pair hp (h.many hp))

/-! Alternatives. -/

theorem orElse {p q : Parser α} (hp : Has Q p) (hq : Has Q q) : Has Q (p <|> q) :=
  h.choice hp fun _ hr => List.mem_singleton.mp hr ▸ hq

theorem optional (hp : Has Q p) : Has Q (Parser.optional p) :=
  h.choice (h.map some hp) fun _ hr => List.mem_singleton.mp hr ▸ h.pure none

end Preserved

section Recursion

variable {Q : (α : Type) → (Cursor → Outcome α) → Prop} {α : Type} {name : String}
  {define : Parser α → Parser α}

/-- A reference to a parser within its own definition has what the definition
passes on from such a reference. By induction on how often it may be entered. -/
theorem has_selfReference (hTooDeep : Q α fun _ => .halted .tooDeep)
    (hDefine : ∀ self, Has Q self → Has Q (define self)) (levels : Nat) :
    Has Q (selfReference name define levels) := by
  induction levels with
  | zero => exact fun _ => hTooDeep
  | succ levels ih =>
      intro d
      cases d with
      | zero => exact hTooDeep
      | succ d => exact hDefine _ ih d

/-- A recursive parser has what its definition passes on from the parser itself. -/
theorem Inherited.recursive (h : Inherited Q)
    (hDefine : ∀ self, Has Q self → Has Q (define self)) : Has Q (Parser.recursive name define) := by
  intro d
  unfold Parser.recursive
  split
  · exact h.halted _
  · exact has_selfReference (h.halted .tooDeep) hDefine d d

end Recursion

end Scriptlet.Parser
