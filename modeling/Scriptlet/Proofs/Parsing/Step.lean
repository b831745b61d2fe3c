import Scriptlet.Grammar.Token

namespace Scriptlet

theorem takeWhile_run {accepts : Char → Bool} {run text : List Char}
    (hRun : ∀ x ∈ run, accepts x = true) (hText : ∀ x ∈ text.head?, accepts x = false) :
    (run ++ text).takeWhile accepts = run := by
  rw [List.takeWhile_append_of_pos hRun]
  cases text with
  | nil => simp
  | cons x text => simp [hText x rfl]

/-- Every text begins with a longest run of a class, which may be empty. -/
theorem exists_run (accepts : Char → Bool) (text : List Char) :
    ∃ run tail, text = run ++ tail ∧ (∀ x ∈ run, accepts x = true) ∧
      ∀ x ∈ tail.head?, accepts x = false := by
  refine ⟨text.takeWhile accepts, text.dropWhile accepts, ?_, ?_, ?_⟩
  · rw [List.takeWhile_append_dropWhile]
  · have hAll := List.all_takeWhile (p := accepts) (l := text)
    rwa [List.all_eq_true] at hAll
  · intro x hx
    have hHead := List.head?_dropWhile_not accepts text
    rw [Option.mem_def.mp hx] at hHead
    simpa using hHead

namespace Cursor

@[simp] theorem skip_zero (c : Cursor) : c.skip 0 = c := by
  simp [skip]

theorem skip_skip (c : Cursor) (m n : Nat) : (c.skip m).skip n = c.skip (m + n) := by
  simp [skip, Nat.add_assoc]

/-- Within a text it does not matter from where a place is counted. -/
theorem place_skip {text : List Char} {pos count : Nat} (h : pos + count ≤ text.length) :
    (place text pos).skip count = place text (pos + count) := by
  simp only [skip, place, List.drop_drop, Cursor.mk.injEq, true_and]
  rw [decide_eq_false (by omega), decide_eq_false (by omega)]

/-- The place at which a given remainder of the text is all that follows. It
is meant for texts that the rest of the cursor ends with. -/
def before (c : Cursor) (rest : List Char) : Cursor :=
  c.skip (c.rest.length - rest.length)

@[simp] theorem before_rest (c : Cursor) : c.before c.rest = c := by
  simp [before]

theorem before_eq_skip {c : Cursor} {word rest : List Char} (h : c.rest = word ++ rest) :
    c.before rest = c.skip word.length := by
  simp [before, h]

theorem rest_before {c : Cursor} {rest : List Char} (h : rest <:+ c.rest) :
    (c.before rest).rest = rest := by
  obtain ⟨word, hWord⟩ := h
  rw [before_eq_skip hWord.symm, rest_skip, ← hWord, List.drop_left]

theorem before_before {c : Cursor} {mid rest : List Char} (hMid : mid <:+ c.rest)
    (hRest : rest <:+ mid) : (c.before mid).before rest = c.before rest := by
  have hLengths := hMid.length_le
  have hLater := hRest.length_le
  rw [before, rest_before hMid, before, before, skip_skip]
  congr 1
  omega

theorem offset_before {c : Cursor} {rest : List Char} :
    (c.before rest).offset = c.offset + (c.rest.length - rest.length) := rfl

/-- Moving on is seen in the offset exactly when characters were passed. -/
theorem offset_lt_before {c : Cursor} {rest : List Char} (h : rest <:+ c.rest) :
    c.offset < (c.before rest).offset ↔ rest.length < c.rest.length := by
  have := h.length_le
  rw [offset_before]
  omega

theorem next?_of_cons {c : Cursor} {x : Char} {text : List Char} (h : c.rest = x :: text) :
    c.next? = some (x, c.skip 1) := by
  simp [next?, h]

theorem next?_of_nil {c : Cursor} (h : c.rest = []) : c.next? = none := by
  simp [next?, h]

/-- A word that is not empty stands at a cursor when the rest begins with it;
beyond the end of the text it never does. -/
theorem after?_of_prefix {c : Cursor} {word text : List Char} (hWord : word ≠ [])
    (h : c.rest = word ++ text) : c.after? word = some (c.skip word.length) := by
  have hInside : c.pastEnd = false := by
    cases hPast : c.pastEnd with
    | false => rfl
    | true =>
        rw [c.rest_of_pastEnd hPast] at h
        exact absurd (List.append_eq_nil_iff.mp h.symm).1 hWord
  simp [after?, hInside, h]

theorem after?_of_not_prefix {c : Cursor} {word : List Char} (h : ¬ word <+: c.rest) :
    c.after? word = none := by
  simp [after?, h]

end Cursor

namespace Failure

/-- Two alternatives that failed at the same place. -/
theorem merge_same (offset : Nat) (left right : Labels) (first second : Bool) :
    merge ⟨offset, left, first⟩ ⟨offset, right, second⟩ =
      ⟨offset, left.union right, first || second⟩ := by
  simp [merge]

theorem merge_uncommitted {left right : Failure} (hLeft : left.consumed = false)
    (hRight : right.consumed = false) : (left.merge right).consumed = false := by
  unfold merge
  split
  · exact hLeft
  · split
    · exact hRight
    · simp [hLeft, hRight]

end Failure

namespace Outcome

variable {α β : Type} {f : α → β} {outcome : Outcome α}

/-! Another value changes neither failures nor halts. -/

theorem success_of_map {value : β} {next : Cursor} (h : outcome.map f = .success value next) :
    ∃ inner, outcome = .success inner next := by
  cases outcome with
  | success inner reached =>
      cases h
      exact ⟨inner, rfl⟩
  | failure | halted => cases h

theorem failure_of_map {reason : Failure} (h : outcome.map f = .failure reason) :
    outcome = .failure reason := by
  cases outcome with
  | failure other =>
      cases h
      rfl
  | success | halted => cases h

theorem halted_of_map {cause : Halt} (h : outcome.map f = .halted cause) :
    outcome = .halted cause := by
  cases outcome with
  | halted other =>
      cases h
      rfl
  | success | failure => cases h

end Outcome

namespace Parser

variable {α β γ : Type} {d : Nat} {c : Cursor}

theorem map_step (f : α → β) (p : Parser α) :
    (f <$> p).step d c = (p.step d c).map f := rfl

theorem keepRight_step (p : Parser α) (q : Parser β) :
    (p *> q).step d c = (keepRight p q).step d c := rfl

theorem keepLeft_step (p : Parser α) (q : Parser β) :
    (p <* q).step d c = (keepLeft p q).step d c := rfl

theorem orElse_step (p q : Parser α) :
    (p <|> q).step d c = (choice p [q]).step d c := rfl

/-- Two parts around a third one, of which the middle one is kept. -/
theorem keepLeft_keepRight_step (p : Parser α) (q : Parser γ) (r : Parser β) :
    (p *> q <* r).step d c = (between p r q).step d c := by
  simp only [keepLeft_step, keepLeft, keepRight_step, keepRight, between]
  cases p.step d c with
  | failure | halted => rfl
  | success value inside =>
      cases hMiddle : q.step d inside with
      | success | failure | halted => simp [hMiddle]

/-! All sequences are pairs whose values are put together differently. -/

theorem pair_step (p : Parser α) (q : Parser β) (d : Nat) (c : Cursor) :
    (pair p q).step d c =
      match p.step d c with
      | .success first reached =>
        match q.step d reached with
        | .success second next => .success (first, second) next
        | .failure reason => .failure (reason.later c reached)
        | .halted cause => .halted cause
      | .failure reason => .failure reason
      | .halted cause => .halted cause := rfl

/-- A pair is a parser that does not depend on the value before it. -/
theorem pair_eq_bind (p : Parser α) (q : Parser β) (d : Nat) :
    (pair p q).step d = (Parser.bind p fun first => Prod.mk first <$> q).step d := by
  funext c
  rw [pair_step]
  simp only [Parser.bind, map_step]
  cases p.step d c with
  | failure | halted => rfl
  | success value reached =>
      simp only
      cases q.step d reached <;> rfl

theorem keepRight_eq_pair (p : Parser α) (q : Parser β) (d : Nat) (c : Cursor) :
    (p *> q).step d c = ((pair p q).step d c).map Prod.snd := by
  simp only [keepRight_step, keepRight, pair_step]
  cases p.step d c with
  | failure | halted => rfl
  | success value reached =>
      simp only
      cases q.step d reached <;> rfl

theorem keepLeft_eq_pair (p : Parser α) (q : Parser β) (d : Nat) (c : Cursor) :
    (p <* q).step d c = ((pair p q).step d c).map Prod.fst := by
  simp only [keepLeft_step, keepLeft, pair_step]
  cases p.step d c with
  | failure | halted => rfl
  | success value reached =>
      simp only
      cases q.step d reached <;> rfl

theorem triple_eq_pair (p : Parser α) (q : Parser β) (r : Parser γ) (d : Nat) (c : Cursor) :
    (triple p q r).step d c =
      ((pair (pair p q) r).step d c).map fun ((first, second), third) => (first, second, third) := by
  simp only [triple]
  rw [pair_step (pair p q) r]
  cases (pair p q).step d c with
  | failure | halted => rfl
  | success value reached =>
      simp only
      cases r.step d reached <;> rfl

theorem between_eq_pair (p : Parser α) (q : Parser β) (r : Parser γ) (d : Nat) (c : Cursor) :
    (between p q r).step d c =
      ((pair (pair p r) q).step d c).map fun ((_, value), _) => value := by
  simp only [between, pair_step]
  cases p.step d c with
  | failure | halted => rfl
  | success opened inside =>
      simp only
      cases r.step d inside with
      | failure | halted => rfl
      | success value reached =>
          simp only
          cases q.step d reached <;> rfl

/-! Failures that do not commit. -/

/-- A parser fails without commitment, so that a choice goes on to its next
alternative and a repetition ends. -/
def Misses (p : Parser α) (d : Nat) (c : Cursor) : Prop :=
  ∃ reason, p.step d c = .failure reason ∧ reason.consumed = false

theorem misses_here {p : Parser α} {label : String}
    (h : p.step d c = .failure (.here c label)) : Misses p d c := ⟨_, h, rfl⟩

/-- A parser for one character of a class, which fails in place and without
commitment where no such character follows. -/
structure Takes (p : Parser Char) (accepts : Char → Bool) : Prop where
  hit : ∀ {d : Nat} {c : Cursor} {x : Char} {text : List Char}, c.rest = x :: text →
    accepts x = true → p.step d c = .success x (c.skip 1)
  miss : ∀ {d : Nat} {c : Cursor}, (∀ x ∈ c.rest.head?, accepts x = false) →
    Misses p d c

theorem satisfy_hit {accepts : Char → Bool} {label : String} {x : Char} {text : List Char}
    (h : c.rest = x :: text) (hAccepts : accepts x = true) :
    (satisfy accepts label).step d c = .success x (c.skip 1) := by
  simp [satisfy, Cursor.next?_of_cons h, hAccepts]

theorem satisfy_miss {accepts : Char → Bool} {label : String}
    (h : ∀ x ∈ c.rest.head?, accepts x = false) :
    (satisfy accepts label).step d c = .failure (.here c label) := by
  cases hRest : c.rest with
  | nil => simp [satisfy, Cursor.next?_of_nil hRest]
  | cons x text =>
      have hx : accepts x = false := h x (by simp [hRest])
      simp [satisfy, Cursor.next?_of_cons hRest, hx]

theorem takes_satisfy (accepts : Char → Bool) (label : String) :
    Takes (satisfy accepts label) accepts where
  hit h hAccepts := satisfy_hit h hAccepts
  miss h := misses_here (satisfy_miss h)

/-- Two classes of characters as alternatives are the union of both. -/
theorem Takes.orElse {p q : Parser Char} {first second : Char → Bool}
    (hp : Takes p first) (hq : Takes q second) :
    Takes (p <|> q) (fun x => first x || second x) where
  hit {d c x text} h hAccepts := by
    cases hFirst : first x with
    | true => simp [orElse_step, choice, hp.hit h hFirst]
    | false =>
        have hSecond : second x = true := by simpa [hFirst] using hAccepts
        obtain ⟨reason, hMiss, hFree⟩ := hp.miss (d := d) (c := c) (by simpa [h] using hFirst)
        simp [orElse_step, choice, tryEach, hMiss, hFree, hq.hit h hSecond]
  miss {d c} h := by
    obtain ⟨reason, hMiss, hFree⟩ := hp.miss (d := d) (c := c) fun x hx => by
      have hBoth := h x hx
      simp only [Bool.or_eq_false_iff] at hBoth
      exact hBoth.1
    obtain ⟨other, hOther, hOtherFree⟩ := hq.miss (d := d) (c := c) fun x hx => by
      have hBoth := h x hx
      simp only [Bool.or_eq_false_iff] at hBoth
      exact hBoth.2
    exact ⟨reason.merge other, by simp [orElse_step, choice, tryEach, hMiss, hFree, hOther, hOtherFree],
      Failure.merge_uncommitted hFree hOtherFree⟩

/-- The rounds of a repetition collect the longest run of the class. They
cannot run out, since every round takes a character. -/
theorem Takes.manyRounds {p : Parser Char} {accepts : Char → Bool} (hp : Takes p accepts)
    (rounds : List Char) (c : Cursor) (found : List Char) (h : c.rest.length ≤ rounds.length) :
    Parser.manyRounds p d rounds c found =
      .success (found.reverse ++ c.rest.takeWhile accepts)
        (c.skip (c.rest.takeWhile accepts).length) := by
  induction rounds generalizing c found with
  | nil =>
      have hRest : c.rest = [] := List.length_eq_zero_iff.mp (Nat.le_zero.mp h)
      obtain ⟨reason, hMiss, hFree⟩ := hp.miss (d := d) (c := c) (by simp [hRest])
      simp [Parser.manyRounds, hMiss, hFree, hRest]
  | cons round rounds ih =>
      cases hRest : c.rest with
      | nil =>
          obtain ⟨reason, hMiss, hFree⟩ := hp.miss (d := d) (c := c) (by simp [hRest])
          simp [Parser.manyRounds, hMiss, hFree]
      | cons x text =>
          cases hAccepts : accepts x with
          | true =>
              have hNext : (c.skip 1).rest = text := by simp [hRest]
              have hLength : (c.skip 1).rest.length ≤ rounds.length := by
                rw [hNext]
                simpa [hRest] using h
              have hMoved : ¬ (c.skip 1).offset = c.offset := by simp
              rw [Parser.manyRounds, hp.hit hRest hAccepts]
              simp only [if_neg hMoved]
              rw [ih _ _ hLength, hNext, Cursor.skip_skip]
              simp [hAccepts, Nat.add_comm]
          | false =>
              obtain ⟨reason, hMiss, hFree⟩ := hp.miss (d := d) (c := c) (by simp [hRest, hAccepts])
              simp [Parser.manyRounds, hMiss, hFree, hAccepts]

theorem Takes.many {p : Parser Char} {accepts : Char → Bool} (hp : Takes p accepts) :
    (Parser.many p).step d c =
      .success (c.rest.takeWhile accepts) (c.skip (c.rest.takeWhile accepts).length) := by
  simpa [Parser.many] using hp.manyRounds c.rest c [] (Nat.le_refl _)

/-- A repetition takes a run of the class that nothing of the class follows. -/
theorem Takes.many_run {p : Parser Char} {accepts : Char → Bool} (hp : Takes p accepts)
    {run text : List Char} (h : c.rest = run ++ text) (hRun : ∀ x ∈ run, accepts x = true)
    (hText : ∀ x ∈ text.head?, accepts x = false) :
    (Parser.many p).step d c = .success run (c.skip run.length) := by
  rw [hp.many, h, takeWhile_run hRun hText]

theorem Takes.many1_run {p : Parser Char} {accepts : Char → Bool} (hp : Takes p accepts)
    {run text : List Char} (hNonempty : run ≠ []) (h : c.rest = run ++ text)
    (hRun : ∀ x ∈ run, accepts x = true) (hText : ∀ x ∈ text.head?, accepts x = false) :
    (many1 p).step d c = .success run (c.skip run.length) := by
  cases run with
  | nil => exact absurd rfl hNonempty
  | cons x run =>
      have hFirst := hp.hit (d := d) (by simpa using h) (hRun x List.mem_cons_self)
      have hRest : (c.skip 1).rest = run ++ text := by simp [h]
      have hOthers := hp.many_run (d := d) hRest
        (fun y hy => hRun y (List.mem_cons_of_mem _ hy)) hText
      simp [many1, Parser.map, pair, hFirst, hOthers, Outcome.map, Cursor.skip_skip, Nat.add_comm]

theorem Takes.many1_miss {p : Parser Char} {accepts : Char → Bool} (hp : Takes p accepts)
    (h : ∀ x ∈ c.rest.head?, accepts x = false) : Misses (many1 p) d c := by
  obtain ⟨reason, hMiss, hFree⟩ := hp.miss (d := d) h
  exact ⟨reason, by simp [many1, Parser.map, pair, hMiss, Outcome.map], hFree⟩

theorem string_hit {word : String} {text : List Char} (hWord : word.toList ≠ [])
    (h : c.rest = word.toList ++ text) :
    (string word).step d c = .success word (c.skip word.toList.length) := by
  simp only [string, Cursor.after?_of_prefix hWord h]

theorem string_miss {word : String} (h : ¬ word.toList <+: c.rest) :
    (string word).step d c = .failure (.here c (Text.quoted word)) := by
  simp only [string, Cursor.after?_of_not_prefix h]

theorem Misses.map {p : Parser α} (h : Misses p d c) (f : α → β) :
    Misses (f <$> p) d c := by
  obtain ⟨reason, hMiss, hFree⟩ := h
  exact ⟨reason, by simp [map_step, hMiss, Outcome.map], hFree⟩

theorem Misses.keepRight {p : Parser α} (h : Misses p d c) (q : Parser β) :
    Misses (p *> q) d c := by
  obtain ⟨reason, hMiss, hFree⟩ := h
  exact ⟨reason, by simp [keepRight_step, Parser.keepRight, hMiss], hFree⟩

theorem Misses.keepLeft {p : Parser α} (h : Misses p d c) (q : Parser β) :
    Misses (p <* q) d c := by
  obtain ⟨reason, hMiss, hFree⟩ := h
  exact ⟨reason, by simp [keepLeft_step, Parser.keepLeft, hMiss], hFree⟩

/-- A label takes the place of any failure that is not committed, also of one
that lies further on. -/
theorem label_of_uncommitted {p : Parser α} {reason : Failure} (name : String)
    (h : p.step d c = .failure reason) (hFree : reason.consumed = false) :
    (label name p).step d c = .failure (.here c name) := by
  simp [label, h, hFree]

theorem Misses.label {p : Parser α} (h : Misses p d c) (name : String) :
    (Parser.label name p).step d c = .failure (.here c name) := by
  obtain ⟨reason, hMiss, hFree⟩ := h
  exact label_of_uncommitted name hMiss hFree

theorem attempt_of_failure {p : Parser α} {reason : Failure}
    (h : p.step d c = .failure reason) :
    (attempt p).step d c = .failure { reason with consumed := false } := by
  simp [attempt, h]

theorem attempt_misses {p : Parser α} {reason : Failure}
    (h : p.step d c = .failure reason) : Misses (attempt p) d c :=
  ⟨_, attempt_of_failure h, rfl⟩

theorem attempt_of_success {p : Parser α} {value : α} {next : Cursor}
    (h : p.step d c = .success value next) :
    (attempt p).step d c = .success value next := by
  simp [attempt, h]

theorem label_success {p : Parser α} {name : String} {value : α} {next : Cursor}
    (h : p.step d c = .success value next) :
    (label name p).step d c = .success value next := by
  simp [label, h]

theorem tryEach_hit {earlier later : List (Parser α)} {p : Parser α} {value : α} {next : Cursor}
    (hEarlier : ∀ q ∈ earlier, Misses q d c) (h : p.step d c = .success value next)
    (failed : Failure) :
    tryEach d c failed (earlier ++ p :: later) = .success value next := by
  induction earlier generalizing failed with
  | nil => simp [tryEach, h]
  | cons q earlier ih =>
      obtain ⟨reason, hMiss, hFree⟩ := hEarlier q List.mem_cons_self
      simp [tryEach, hMiss, hFree, ih fun r hr => hEarlier r (List.mem_cons_of_mem _ hr)]

theorem tryEach_misses {parsers : List (Parser α)} (h : ∀ p ∈ parsers, Misses p d c)
    {failed : Failure} (hFailed : failed.consumed = false) :
    ∃ all, tryEach d c failed parsers = .failure all ∧ all.consumed = false := by
  induction parsers generalizing failed with
  | nil => exact ⟨failed, rfl, hFailed⟩
  | cons p parsers ih =>
      obtain ⟨reason, hMiss, hFree⟩ := h p List.mem_cons_self
      obtain ⟨all, hAll, hAllFree⟩ := ih (fun q hq => h q (List.mem_cons_of_mem _ hq))
        (Failure.merge_uncommitted hFailed hFree)
      exact ⟨all, by simp [tryEach, hMiss, hFree, hAll], hAllFree⟩

/-- The first alternative that matches is taken, if all before it miss. -/
theorem choice_hit {first p : Parser α} {others : List (Parser α)} {value : α} {next : Cursor}
    (earlier later : List (Parser α)) (hSplit : first :: others = earlier ++ p :: later)
    (hEarlier : ∀ q ∈ earlier, Misses q d c) (h : p.step d c = .success value next) :
    (choice first others).step d c = .success value next := by
  cases earlier with
  | nil =>
      obtain ⟨rfl, rfl⟩ := List.cons.inj hSplit
      simp [choice, h]
  | cons q earlier =>
      obtain ⟨rfl, rfl⟩ := List.cons.inj hSplit
      obtain ⟨reason, hMiss, hFree⟩ := hEarlier first List.mem_cons_self
      simp [choice, hMiss, hFree, tryEach_hit (fun r hr => hEarlier r (List.mem_cons_of_mem _ hr)) h]

/-- A choice between the members of a family takes the first that matches. -/
theorem choice_map_hit {ι : Type} {family : ι → Parser α} {first i : ι}
    {others earlier later : List ι} {value : α} {next : Cursor}
    (hSplit : first :: others = earlier ++ i :: later)
    (hEarlier : ∀ j ∈ earlier, Misses (family j) d c)
    (h : (family i).step d c = .success value next) :
    (choice (family first) (others.map family)).step d c = .success value next := by
  refine choice_hit (earlier.map family) (later.map family) ?_ ?_ h
  · rw [← List.map_cons, hSplit, List.map_append, List.map_cons]
  · intro q hq
    obtain ⟨j, hj, rfl⟩ := List.mem_map.mp hq
    exact hEarlier j hj

theorem choice_misses {first : Parser α} {others : List (Parser α)} (hFirst : Misses first d c)
    (hOthers : ∀ p ∈ others, Misses p d c) : Misses (choice first others) d c := by
  obtain ⟨reason, hMiss, hFree⟩ := hFirst
  obtain ⟨all, hAll, hAllFree⟩ := tryEach_misses hOthers hFree
  exact ⟨all, by simp [choice, hMiss, hFree, hAll], hAllFree⟩

theorem optional_of_success {p : Parser α} {value : α} {next : Cursor}
    (h : p.step d c = .success value next) :
    (Parser.optional p).step d c = .success (some value) next := by
  simp [Parser.optional, choice, Parser.map, h, Outcome.map]

theorem optional_of_misses {p : Parser α} (h : Misses p d c) :
    (Parser.optional p).step d c = .success none c := by
  obtain ⟨reason, hMiss, hFree⟩ := h
  simp [Parser.optional, choice, tryEach, Parser.map, hMiss, hFree, Outcome.map, Parser.pure]

theorem optional_of_committed {p : Parser α} {reason : Failure} (h : p.step d c = .failure reason)
    (hCommitted : reason.consumed = true) :
    (Parser.optional p).step d c = .failure reason := by
  simp [Parser.optional, choice, Parser.map, h, hCommitted, Outcome.map]

end Parser

end Scriptlet
