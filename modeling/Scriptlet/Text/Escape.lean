namespace Scriptlet.Text

/-- The character that begins a terminal's control sequence. -/
def escape : Char := '\x1b'

/-- The characters that may stand between the bracket and the final letter of
a control sequence. -/
def isParameter (c : Char) : Bool :=
  c = ';' || c = '?' || ('0' ≤ c && c ≤ '9')

def isFinalLetter (c : Char) : Bool :=
  ('a' ≤ c && c ≤ 'z') || ('A' ≤ c && c ≤ 'Z')

/-- A text from which control sequences are being erased. Both parts are in
reverse: what is kept for certain, and what may turn out to be the beginning of
a sequence. -/
structure Erasure where
  kept : List Char
  held : List Char

namespace Erasure

/-- What is held is kept after all. -/
def release (state : Erasure) : List Char :=
  state.held ++ state.kept

/-- Takes a character that cannot go on what is held. -/
def restart (state : Erasure) (c : Char) : Erasure :=
  if c = escape then ⟨state.release, [escape]⟩ else ⟨c :: state.release, []⟩

/-- Takes the next character: an escape, a bracket, parameters and a letter, in
this order, are erased as soon as the letter is there. -/
def push (state : Erasure) (c : Char) : Erasure :=
  match state.held with
  | [] => state.restart c
  | [first] => if c = '[' then ⟨state.kept, [c, first]⟩ else state.restart c
  | held =>
    if isParameter c then ⟨state.kept, c :: held⟩
    else if isFinalLetter c then ⟨state.kept, []⟩
    else state.restart c

end Erasure

/-- A text without the control sequences that give it colour. An unfinished
sequence stays. -/
def eraseEscapes (text : List Char) : List Char :=
  (text.foldl Erasure.push ⟨[], []⟩).release.reverse

end Scriptlet.Text
