namespace Scriptlet.Text

/-- How many characters two texts have in common at their beginning. -/
def commonStart : List Char → List Char → Nat
  | a :: as, b :: bs => if a = b then commonStart as bs + 1 else 0
  | _, _ => 0

/-- A block that two texts share: where it begins in each of them, and its
length. -/
structure SharedBlock where
  left : Nat
  right : Nat
  size : Nat

/-- The longest of a block found before and the blocks that begin at one place
of the first text and at the `right`th character or behind it in the second. -/
def longestFrom (left : Nat) (a : List Char) (right : Nat) (best : SharedBlock) :
    List Char → SharedBlock
  | [] => best
  | c :: b =>
    let size := commonStart a (c :: b)
    longestFrom left a (right + 1) (if best.size < size then ⟨left, right, size⟩ else best) b

/-- The longest of a block found before and the blocks that begin at the
`left`th character or behind it in the first text. -/
def longestBehind (b : List Char) (left : Nat) (best : SharedBlock) : List Char → SharedBlock
  | [] => best
  | c :: a => longestBehind b (left + 1) (longestFrom left (c :: a) 0 best b) a

/-- The longest block that two texts share. Of several of one length it is the
first one in the first text, and of those the first one in the second text. -/
def longestBlock (a b : List Char) : SharedBlock :=
  longestBehind b 0 ⟨0, 0, 0⟩ a

/-- The number of characters in the longest shared block, the longest ones
beside it on either side, and so on. Each round has shorter texts, so their
length bounds the rounds. -/
def matchedWithin : Nat → List Char → List Char → Nat
  | 0, _, _ => 0
  | rounds + 1, a, b =>
    let block := longestBlock a b
    if block.size = 0 then 0
    else
      matchedWithin rounds (a.take block.left) (b.take block.right) + block.size +
        matchedWithin rounds (a.drop (block.left + block.size)) (b.drop (block.right + block.size))

/-- How alike two texts are, as a fraction: the characters in shared blocks by
the characters of both. -/
structure Similarity where
  matched : Nat
  total : Nat

namespace Similarity

def of (a b : String) : Similarity where
  matched := matchedWithin (a.length + 1) a.toList b.toList
  total := a.length + b.length

/-- Whether shared blocks make up at least three fifths of the texts. -/
def isClose (s : Similarity) : Bool :=
  3 * s.total ≤ 10 * s.matched

def lt (s t : Similarity) : Bool :=
  s.matched * t.total < t.matched * s.total

end Similarity

/-- The candidates that are close to a word, at most three and the most similar
ones, in alphabetical order. -/
def closeMatches (word : String) (candidates : List String) : List String :=
  let close := candidates.filter fun candidate => (Similarity.of candidate word).isClose
  let closer (a b : String) : Bool :=
    let s := Similarity.of a word
    let t := Similarity.of b word
    Similarity.lt t s || (!Similarity.lt s t && decide (b ≤ a))
  ((close.mergeSort closer).take 3).mergeSort fun a b => decide (a ≤ b)

end Scriptlet.Text
