import Scriptlet.Grammar.Expression
import Scriptlet.Proofs.Parsing.Step

namespace Scriptlet.Grammar

/-- The characters that may stand after any token. -/
def isBlank (c : Char) : Bool := c == ' ' || c == '\n' || c == '\t'

def isNameStart (c : Char) : Bool := Text.isLetter c || c == '_'

def isNamePart (c : Char) : Bool := isNameStart c || c.isDigit

/-- A name begins with a letter or an underscore and goes on with letters,
underscores and ASCII digits. -/
def IsName : List Char → Prop
  | [] => False
  | first :: rest => isNameStart first = true ∧ ∀ c ∈ rest, isNamePart c = true

/-- A property of all characters of a text is decided along the text, not by
going through all characters there are. -/
def decidableAll (text : List Char) (accepts : Char → Bool) :
    Decidable (∀ c ∈ text, accepts c = true) :=
  decidable_of_iff (text.all accepts = true) List.all_eq_true

instance : (name : List Char) → Decidable (IsName name)
  | [] => .isFalse id
  | first :: rest =>
    @instDecidableAnd _ _ (inferInstanceAs (Decidable (isNameStart first = true)))
      (decidableAll rest isNamePart)

/-- A run of at least one ASCII digit. -/
def IsDigits (run : List Char) : Prop := run ≠ [] ∧ ∀ c ∈ run, c.isDigit = true

instance (run : List Char) : Decidable (IsDigits run) :=
  @instDecidableAnd _ _ (inferInstanceAs (Decidable (run ≠ []))) (decidableAll run Char.isDigit)

def IsBlank (run : List Char) : Prop := ∀ c ∈ run, isBlank c = true

instance (run : List Char) : Decidable (IsBlank run) := decidableAll run isBlank

/-- A text that does not begin with a blank. -/
def NoBlank (text : List Char) : Prop := ∀ c ∈ text.head?, isBlank c = false

theorem isBlank_nil : IsBlank [] := fun _ hc => absurd hc List.not_mem_nil

theorem noBlank_nil : NoBlank [] := fun _ hc => nomatch hc

/-- The parentheses and the punctuation of declarations. The equals sign that
begins a longer operator is told apart only by what follows. -/
def marks : List Char := ['(', ')', ':', '=', ';']

/-- The units that a text is made of, blanks apart. A reserved word is a word
like any other name. -/
inductive Token where
  | digits (run : List Char)
  | pointed (whole fraction : List Char)
  | quotation (body : List Char)
  | word (name : List Char)
  | operator (op : Operator)
  | mark (c : Char)
  deriving DecidableEq

namespace Token

def openParen : Token := mark '('

def closeParen : Token := mark ')'

def semicolon : Token := mark ';'

def text : Token → List Char
  | digits run => run
  | pointed whole fraction => whole ++ '.' :: fraction
  | quotation body => '"' :: body ++ ['"']
  | word name => name
  | operator op => op.symbol.toList
  | mark c => [c]

/-- The tokens that can be written at all. -/
def Valid : Token → Prop
  | digits run => IsDigits run
  | pointed whole fraction => IsDigits whole ∧ ∀ c ∈ fraction, c.isDigit = true
  | quotation body => '"' ∉ body
  | word name => IsName name
  | operator _ => True
  | mark c => c ∈ marks

/-- Whether the token is over when the given character comes next. A point
makes a number longer, and a second character may make a longer operator. -/
def endsBefore (next : Char) : Token → Bool
  | digits _ => !(next.isDigit || next == '.')
  | pointed _ _ => !next.isDigit
  | quotation _ => true
  | word _ => !isNamePart next
  | operator op => operatorOrder.all fun longer => longer.symbol.toList != op.symbol.toList ++ [next]
  | mark _ => true

def isOperator : Token → Bool
  | operator _ => true
  | _ => false

/-- The token is over in front of a text. -/
def Ends (t : Token) (text : List Char) : Prop := ∀ c ∈ text.head?, t.endsBefore c = true

/-- A token stands at the beginning of a text, as long as it can be, and the
rest is what follows the blanks after it. -/
inductive Read (t : Token) : List Char → List Char → Prop where
  | intro {run rest : List Char} (hValid : t.Valid) (hRun : IsBlank run) (hRest : NoBlank rest)
      (hEnds : t.Ends (run ++ rest)) : Read t (t.text ++ (run ++ rest)) rest

end Token

/-- The tokens stand one after the other at the beginning of a text. -/
inductive Written : List Token → List Char → List Char → Prop where
  | nil (text : List Char) : Written [] text text
  | cons {t : Token} {ts : List Token} {text mid rest : List Char}
      (first : t.Read text mid) (others : Written ts mid rest) : Written (t :: ts) text rest

/-- The tokens with a run of blanks, possibly empty, after each of them. Where
one token ends and the next one begins need not be visible. -/
inductive Layout : List Token → List Char → Prop where
  | nil : Layout [] []
  | cons {t : Token} {ts : List Token} {run text : List Char} (hRun : IsBlank run)
      (others : Layout ts text) : Layout (t :: ts) (t.text ++ (run ++ text))

/-! Classes of characters. -/

/-- The table of letters begins with the capital A. -/
theorem isLetter_of_lt {c : Char} (h : c.toNat < 0x41) : Text.isLetter c = false :=
  if_pos h

theorem toNat_of_isDigit {c : Char} (h : c.isDigit = true) : 0x30 ≤ c.toNat ∧ c.toNat ≤ 0x39 := by
  simp only [Char.isDigit, Bool.and_eq_true, decide_eq_true_eq, ge_iff_le,
    UInt32.le_iff_toNat_le] at h
  exact h

theorem not_isNameStart_of_isDigit {c : Char} (h : c.isDigit = true) : isNameStart c = false := by
  obtain ⟨_, hHigh⟩ := toNat_of_isDigit h
  have hUnderscore : c ≠ '_' := by
    rintro rfl
    exact absurd hHigh (by decide)
  simp [isNameStart, isLetter_of_lt (by omega : c.toNat < 0x41), hUnderscore]

theorem isNamePart_of_isDigit {c : Char} (h : c.isDigit = true) : isNamePart c = true := by
  simp [isNamePart, h]

theorem isNamePart_of_isNameStart {c : Char} (h : isNameStart c = true) : isNamePart c = true := by
  simp [isNamePart, h]

theorem isBlank_cases {c : Char} (h : isBlank c = true) : c = ' ' ∨ c = '\n' ∨ c = '\t' := by
  simpa [isBlank, or_assoc] using h

theorem not_isNamePart_of_isBlank {c : Char} (h : isBlank c = true) : isNamePart c = false := by
  rcases isBlank_cases h with rfl | rfl | rfl <;> decide

theorem not_isBlank_of_isNamePart {c : Char} (h : isNamePart c = true) : isBlank c = false := by
  cases hBlank : isBlank c with
  | false => rfl
  | true =>
      rw [not_isNamePart_of_isBlank hBlank] at h
      exact absurd h Bool.false_ne_true

/-- Every token is over in front of a blank. -/
theorem Token.endsBefore_of_isBlank {t : Token} {c : Char} (h : isBlank c = true) :
    t.endsBefore c = true := by
  cases t with
  | digits run | pointed whole fraction | word name =>
      rcases isBlank_cases h with rfl | rfl | rfl <;> rfl
  | quotation body | mark c => rfl
  | operator op => rcases isBlank_cases h with rfl | rfl | rfl <;> cases op <;> decide

/-! Reading a single token. -/

namespace Token

theorem Valid.text_ne_nil {t : Token} (h : t.Valid) : t.text ≠ [] := by
  cases t with
  | digits run => exact h.1
  | pointed whole fraction => simp [text]
  | quotation body => simp [text]
  | word name => intro hNil; simp only [text] at hNil; subst hNil; exact h
  | operator op => cases op <;> decide
  | mark c => simp [text]

theorem valid_openParen : openParen.Valid := by
  show '(' ∈ marks
  decide

theorem valid_closeParen : closeParen.Valid := by
  show ')' ∈ marks
  decide

theorem valid_semicolon : semicolon.Valid := by
  show ';' ∈ marks
  decide

/-- A token that is over in front of a text is read with all blanks there. -/
theorem exists_read (t : Token) (text : List Char) (hValid : t.Valid) (hEnds : t.Ends text) :
    ∃ rest, t.Read (t.text ++ text) rest := by
  obtain ⟨run, rest, rfl, hRun, hRest⟩ := exists_run isBlank text
  exact ⟨rest, .intro hValid hRun hRest hEnds⟩

variable {t : Token} {text rest : List Char}

theorem Read.valid (h : t.Read text rest) : t.Valid := by
  cases h with
  | intro hValid => exact hValid

theorem Read.noBlank (h : t.Read text rest) : NoBlank rest := by
  cases h with
  | intro _ _ hRest => exact hRest

/-- What a reading consists of: the token, blanks, and a rest that the token
does not reach into. -/
theorem Read.split (h : t.Read text rest) :
    ∃ run, IsBlank run ∧ text = t.text ++ (run ++ rest) ∧ t.Ends (run ++ rest) := by
  cases h with
  | @intro run _ _ hRun _ hEnds => exact ⟨run, hRun, rfl, hEnds⟩

theorem Read.suffix (h : t.Read text rest) : rest <:+ text := by
  obtain ⟨run, _, rfl, _⟩ := h.split
  exact ⟨t.text ++ run, List.append_assoc ..⟩

theorem Read.length_lt (h : t.Read text rest) : rest.length < text.length := by
  have hPositive := List.length_pos_iff.mpr h.valid.text_ne_nil
  obtain ⟨run, _, rfl, _⟩ := h.split
  simp only [List.length_append]
  omega

theorem Read.head? (h : t.Read text rest) : text.head? = t.text.head? := by
  obtain ⟨run, _, rfl, _⟩ := h.split
  have hText := h.valid.text_ne_nil
  cases hSpelled : t.text with
  | nil => exact absurd hSpelled hText
  | cons c tail => rfl

end Token

/-! Reading several tokens. -/

theorem Written.single {t : Token} {text rest : List Char} (h : t.Read text rest) :
    Written [t] text rest :=
  .cons h (.nil rest)

theorem written_single {t : Token} {text rest : List Char} (h : Written [t] text rest) :
    t.Read text rest := by
  cases h with
  | cons first others =>
      cases others with
      | nil => exact first

theorem Written.append {ts us : List Token} {text mid rest : List Char} (h : Written ts text mid)
    (hLater : Written us mid rest) : Written (ts ++ us) text rest := by
  induction h with
  | nil => exact hLater
  | cons first _ ih => exact .cons first (ih hLater)

theorem written_append {ts us : List Token} {text rest : List Char}
    (h : Written (ts ++ us) text rest) : ∃ mid, Written ts text mid ∧ Written us mid rest := by
  induction ts generalizing text with
  | nil => exact ⟨text, .nil text, h⟩
  | cons t ts ih =>
      cases h with
      | cons first others =>
          obtain ⟨mid, hTokens, hLater⟩ := ih others
          exact ⟨mid, .cons first hTokens, hLater⟩

theorem Written.valid {ts : List Token} {text rest : List Char} (h : Written ts text rest) :
    ∀ t ∈ ts, t.Valid := by
  induction h with
  | nil => exact fun t ht => absurd ht List.not_mem_nil
  | cons first _ ih => exact List.forall_mem_cons.mpr ⟨first.valid, ih⟩

theorem Written.suffix {ts : List Token} {text rest : List Char} (h : Written ts text rest) :
    rest <:+ text := by
  induction h with
  | nil text => exact List.suffix_refl text
  | cons first _ ih => exact ih.trans first.suffix

theorem Written.length_lt {ts : List Token} {text rest : List Char} (h : Written ts text rest)
    (hTokens : ts ≠ []) : rest.length < text.length := by
  cases h with
  | nil => exact absurd rfl hTokens
  | cons first others => exact Nat.lt_of_le_of_lt others.suffix.length_le first.length_lt

end Scriptlet.Grammar
