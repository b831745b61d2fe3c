import Scriptlet.Proofs.Entry

namespace Scriptlet

open Grammar

/-- What a scan of a text for open groups remembers: whether it is inside of a
string, and how many parentheses are open. -/
structure Scan where
  quoted : Bool
  depth : Nat

namespace Scan

/-- A closing parenthesis without an opening one closes nothing. -/
def next : Scan → Char → Scan
  | ⟨true, depth⟩, c => ⟨c != '"', depth⟩
  | ⟨false, depth⟩, c =>
    if c = '"' then ⟨true, depth⟩
    else if c = '(' then ⟨false, depth + 1⟩
    else if c = ')' then ⟨false, depth - 1⟩
    else ⟨false, depth⟩

end Scan

/-- How many parentheses are open at the end of a text, those in strings apart. -/
def openGroups (text : List Char) : Nat := (text.foldl Scan.next ⟨false, 0⟩).depth

/-- A character opens one group at most. -/
theorem openGroups_le_length (text : List Char) : openGroups text ≤ text.length := by
  have hScan : ∀ (text : List Char) (state : Scan),
      (text.foldl Scan.next state).depth ≤ state.depth + text.length := by
    intro text
    induction text with
    | nil => exact fun state => Nat.le_refl _
    | cons x text ih =>
        intro state
        have hNext : (state.next x).depth ≤ state.depth + 1 := by
          obtain ⟨quoted, depth⟩ := state
          cases quoted with
          | true => exact Nat.le_succ depth
          | false =>
              simp only [Scan.next]
              split_ifs <;> simp only <;> omega
        have hLater := ih (state.next x)
        rw [List.foldl_cons, List.length_cons]
        omega
  have hAll := hScan text ⟨false, 0⟩
  rwa [Nat.zero_add] at hAll

namespace Grammar

/-- The number of open groups after a token. -/
def Token.depthAfter (depth : Nat) : Token → Nat
  | mark c => if c = '(' then depth + 1 else if c = ')' then depth - 1 else depth
  | _ => depth

/-! The scan of a text sees the groups that its tokens open. -/

theorem scan_plain {text : List Char} (h : ∀ c ∈ text, c ≠ '"' ∧ c ≠ '(' ∧ c ≠ ')') (depth : Nat) :
    text.foldl Scan.next ⟨false, depth⟩ = ⟨false, depth⟩ := by
  induction text with
  | nil => rfl
  | cons c text ih =>
      obtain ⟨hQuote, hOpen, hClose⟩ := h c List.mem_cons_self
      rw [List.foldl_cons, Scan.next, if_neg hQuote, if_neg hOpen, if_neg hClose]
      exact ih fun x hx => h x (List.mem_cons_of_mem c hx)

theorem scan_quoted {body : List Char} (h : '"' ∉ body) (depth : Nat) :
    body.foldl Scan.next ⟨true, depth⟩ = ⟨true, depth⟩ := by
  induction body with
  | nil => rfl
  | cons c body ih =>
      have hHere : c ≠ '"' := fun hBad => h (hBad ▸ List.mem_cons_self)
      have hStays : (c != '"') = true := by simpa using hHere
      rw [List.foldl_cons, Scan.next, hStays]
      exact ih fun hBad => h (List.mem_cons_of_mem c hBad)

theorem plain_of_isNamePart {c : Char} (h : isNamePart c = true) : c ≠ '"' ∧ c ≠ '(' ∧ c ≠ ')' := by
  refine ⟨?_, ?_, ?_⟩ <;> rintro rfl <;> exact absurd h (by decide)

theorem plain_of_isDigit {c : Char} (h : c.isDigit = true) : c ≠ '"' ∧ c ≠ '(' ∧ c ≠ ')' :=
  plain_of_isNamePart (isNamePart_of_isDigit h)

theorem plain_of_isBlank {c : Char} (h : isBlank c = true) : c ≠ '"' ∧ c ≠ '(' ∧ c ≠ ')' := by
  rcases isBlank_cases h with rfl | rfl | rfl <;> decide

theorem scan_token {t : Token} (h : t.Valid) (depth : Nat) :
    t.text.foldl Scan.next ⟨false, depth⟩ = ⟨false, t.depthAfter depth⟩ := by
  cases t with
  | digits run => exact scan_plain (fun c hc => plain_of_isDigit (h.2 c hc)) depth
  | pointed whole fraction =>
      refine scan_plain (fun c hc => ?_) depth
      rcases List.mem_append.mp hc with hc | hc
      · exact plain_of_isDigit (h.1.2 c hc)
      · rcases List.mem_cons.mp hc with rfl | hc
        · decide
        · exact plain_of_isDigit (h.2 c hc)
  | quotation body =>
      have hBody : '"' ∉ body := h
      have hOpening : Scan.next ⟨false, depth⟩ '"' = ⟨true, depth⟩ := rfl
      rw [Token.text, List.cons_append, List.foldl_cons, List.foldl_append, hOpening,
        scan_quoted hBody]
      rfl
  | word name => exact scan_plain (fun c hc => plain_of_isNamePart (IsName.isNamePart h c hc)) depth
  | operator op =>
      refine scan_plain (fun c hc => ?_) depth
      have hPlain := operator_all (fun c => c != '"' && c != '(' && c != ')') (by decide) op c hc
      simpa [and_assoc] using hPlain
  | mark c =>
      have hQuote : c ≠ '"' := by
        rintro rfl
        exact absurd h (by decide : '"' ∉ marks)
      rw [Token.text, List.foldl_cons, List.foldl_nil, Scan.next, if_neg hQuote]
      simp only [Token.depthAfter]
      split
      · rfl
      · split <;> rfl

theorem scan_layout {ts : List Token} {text : List Char} (h : Layout ts text)
    (hValid : ∀ t ∈ ts, t.Valid) (depth : Nat) :
    text.foldl Scan.next ⟨false, depth⟩ = ⟨false, ts.foldl Token.depthAfter depth⟩ := by
  induction h generalizing depth with
  | nil => rfl
  | @cons t ts run text hRun others ih =>
      rw [List.foldl_append, scan_token (hValid t List.mem_cons_self), List.foldl_append,
        scan_plain (fun c hc => plain_of_isBlank (hRun c hc)),
        ih fun u hu => hValid u (List.mem_cons_of_mem t hu)]
      rfl

/-! Spelled trees leave the number of open groups as it was. -/

theorem Expr.Spelling.depth_after {e : Expr} {ts : List Token} (h : e.Spelling ts) (depth : Nat) :
    ts.foldl Token.depthAfter depth = depth := by
  induction h generalizing depth with
  | literal h => cases h <;> rfl
  | var name => rfl
  | parens h ih =>
      rw [List.foldl_cons, List.foldl_append, ih]
      rfl
  | operation hLeft hRight ihLeft ihRight =>
      rw [List.foldl_append, ihLeft, List.foldl_cons, ihRight]
      rfl

theorem heading_depth (name : String) (type : Option TypeName) (depth : Nat) :
    (heading name type).foldl Token.depthAfter depth = depth := by
  cases type <;> rfl

theorem Piece.depth_after (p : Piece) (depth : Nat) : p.tokens.foldl Token.depthAfter depth = depth := by
  obtain ⟨s, ts, hSpelling, _⟩ := p
  cases hSpelling with
  | bare h => exact Expr.Spelling.depth_after h depth
  | terminated h =>
      show (_ ++ [Token.semicolon]).foldl Token.depthAfter depth = depth
      rw [List.foldl_append, Expr.Spelling.depth_after h]
      rfl
  | declaration h =>
      cases h with
      | mk name type h =>
          show (heading name type ++ _).foldl Token.depthAfter depth = depth
          rw [List.foldl_append, heading_depth]
          cases h with
          | none => rfl
          | some h =>
              rw [List.foldl_cons, List.foldl_append, Expr.Spelling.depth_after h]
              rfl

theorem allTokens_depth (pieces : List Piece) (depth : Nat) :
    (Piece.allTokens pieces).foldl Token.depthAfter depth = depth := by
  induction pieces with
  | nil => rfl
  | cons p pieces ih => rw [Piece.allTokens_cons, List.foldl_append, Piece.depth_after, ih]

/-! What goes wrong tells how many groups are open. -/

variable {d k : Nat} {ts : List Token} {mid rest : List Char} {labels : Labels}

theorem Due.depth_after (h : Due d ts) (depth : Nat) : ts.foldl Token.depthAfter depth = depth := by
  cases h with
  | start => rfl
  | operator h =>
      rw [List.foldl_append, Expr.Spelling.depth_after h]
      rfl

theorem Opening.depth_after (h : Opening d k ts) (depth : Nat) :
    ts.foldl Token.depthAfter depth = depth + k := by
  induction h generalizing depth with
  | here hDue => exact hDue.depth_after depth
  | group hDue inner ih =>
      rw [List.foldl_append, hDue.depth_after, List.foldl_cons, ih]
      show depth + 1 + _ = depth + (_ + 1)
      omega

theorem Stuck.depth_after (h : Stuck d k ts mid rest labels) (depth : Nat) :
    ts.foldl Token.depthAfter depth = depth + k := by
  cases h with
  | operand hOpening => exact hOpening.depth_after depth
  | quote hOpening => exact hOpening.depth_after depth
  | close hOpening hSpelling =>
      rw [List.foldl_append, hOpening.depth_after, List.foldl_cons, Expr.Spelling.depth_after hSpelling]
      rfl

theorem InitializerStuck.depth_after (h : InitializerStuck d k ts mid rest labels) (depth : Nat) :
    ts.foldl Token.depthAfter depth = depth + k := by
  cases h with
  | start => rfl
  | expression h => exact h.depth_after depth
  | semicolon hSpelling => exact Expr.Spelling.depth_after hSpelling depth

theorem DeclarationStuck.depth_after (h : DeclarationStuck d k ts mid rest labels) (depth : Nat) :
    ts.foldl Token.depthAfter depth = depth + k := by
  cases h with
  | keyword | name | type => rfl
  | initializer hName h => rw [List.foldl_append, heading_depth, h.depth_after]

theorem StatementExhausted.depth_after (h : StatementExhausted d ts) (depth : Nat) :
    ts.foldl Token.depthAfter depth = depth + d := by
  cases h with
  | declaration hOpening =>
      rw [List.foldl_append, heading_depth, List.foldl_cons]
      exact hOpening.depth_after depth
  | expression hOpening => exact hOpening.depth_after depth

theorem StatementStuck.depth_after (h : StatementStuck d k ts mid rest labels) (depth : Nat) :
    ts.foldl Token.depthAfter depth = depth + k := by
  cases h with
  | start => rfl
  | expression h => exact h.depth_after depth

end Grammar

theorem Sentence.depth_after {limit : Nat} {filename : String} {entry : Entry} {ts : List Token}
    {node : Node} (h : Sentence limit filename entry ts node) : ts.foldl Token.depthAfter 0 = 0 := by
  cases h with
  | program hWithin hChain => exact allTokens_depth _ 0
  | @declared v ts h hForm hNesting =>
      exact Piece.depth_after ⟨.declaration v, ts, .declaration h, hForm⟩ 0
  | bare h hForm hNesting => exact Expr.Spelling.depth_after h 0
  | expression h hForm hNesting => exact Expr.Spelling.depth_after h 0
  | @declaration v ts h hForm hNesting =>
      exact Piece.depth_after ⟨.declaration v, ts, .declaration h, hForm⟩ 0

theorem SourceStuck.depth_after {limit k : Nat} {filename : String} {entry : Entry} {ts : List Token}
    {mid rest : List Char} {labels : Labels}
    (h : SourceStuck limit filename entry k ts mid rest labels) : ts.foldl Token.depthAfter 0 = k := by
  cases h with
  | trailing h => exact h.depth_after
  | program hWithin hChain h =>
      rw [List.foldl_append, allTokens_depth, h.depth_after, Nat.zero_add]
  | statement h => rw [h.depth_after, Nat.zero_add]
  | expression h => rw [h.depth_after, Nat.zero_add]
  | declaration h => rw [h.depth_after, Nat.zero_add]

/-- A production that gives up has as many groups open as there is depth. -/
theorem SourceExhausted.depth_after {limit : Nat} {entry : Entry} {before ts : List Token}
    (h : SourceExhausted limit entry before ts) : (before ++ ts).foldl Token.depthAfter 0 = limit := by
  cases h with
  | program h => rw [List.foldl_append, allTokens_depth, h.depth_after, Nat.zero_add]
  | statement h => rw [List.nil_append, h.depth_after, Nat.zero_add]
  | expression h => rw [List.nil_append, h.depth_after, Nat.zero_add]
  | declaration h =>
      rw [List.nil_append, (StatementExhausted.declaration h).depth_after, Nat.zero_add]

/-- The groups open in front of a place are those of the tokens before it. -/
theorem openGroups_of_layout {ts : List Token} {lead head : List Char} (hLead : IsBlank lead)
    (h : Layout ts head) (hValid : ∀ t ∈ ts, t.Valid) :
    openGroups (lead ++ head) = ts.foldl Token.depthAfter 0 := by
  rw [openGroups, List.foldl_append, scan_plain (fun c hc => plain_of_isBlank (hLead c hc)),
    scan_layout h hValid]

/-- Tokens open no more groups than a scan of the text finds somewhere in it. -/
theorem depth_lt_of_layout {bound : Nat} {ts : List Token} {lead head rest : List Char}
    (hOpen : ∀ n, openGroups ((lead ++ (head ++ rest)).take n) < bound) (hLead : IsBlank lead)
    (h : Layout ts head) (hValid : ∀ t ∈ ts, t.Valid) : ts.foldl Token.depthAfter 0 < bound := by
  have hTake : (lead ++ (head ++ rest)).take (lead.length + head.length) = lead ++ head := by
    rw [← List.append_assoc, ← List.length_append, List.take_left]
  have hScan := hOpen (lead.length + head.length)
  rwa [hTake, openGroups_of_layout hLead h hValid] at hScan

end Scriptlet
