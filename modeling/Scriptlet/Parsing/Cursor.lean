namespace Scriptlet

/-- A place in a text: how many characters precede it and which follow.
`pastEnd` marks an offset beyond the end of the text, where nothing follows
and not even the empty word stands. -/
structure Cursor where
  offset : Nat
  rest : List Char
  pastEnd : Bool
  rest_of_pastEnd : pastEnd = true → rest = []
  deriving DecidableEq

namespace Cursor

/-- The place at a given offset of a text. -/
def place (text : List Char) (offset : Nat) : Cursor where
  offset := offset
  rest := text.drop offset
  pastEnd := decide (text.length < offset)
  rest_of_pastEnd h := List.drop_eq_nil_of_le (Nat.le_of_lt (of_decide_eq_true h))

/-- The place a number of characters further on. -/
def skip (cursor : Cursor) (count : Nat) : Cursor where
  offset := cursor.offset + count
  rest := cursor.rest.drop count
  pastEnd := cursor.pastEnd
  rest_of_pastEnd h := by rw [cursor.rest_of_pastEnd h, List.drop_nil]

@[simp] theorem offset_skip (cursor : Cursor) (count : Nat) :
    (cursor.skip count).offset = cursor.offset + count := rfl

@[simp] theorem rest_skip (cursor : Cursor) (count : Nat) :
    (cursor.skip count).rest = cursor.rest.drop count := rfl

/-- The character at the cursor, and the place after it. -/
def next? (cursor : Cursor) : Option (Char × Cursor) :=
  cursor.rest.head?.map fun c => (c, cursor.skip 1)

/-- The place after a word, provided that the word stands at the cursor. -/
def after? (cursor : Cursor) (word : List Char) : Option Cursor :=
  if !cursor.pastEnd && word.isPrefixOf cursor.rest then some (cursor.skip word.length) else none

end Cursor

end Scriptlet
