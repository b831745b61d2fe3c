namespace Scriptlet.Number

/-- The value of one ASCII digit. -/
def digitValue (c : Char) : Nat := c.toNat - '0'.toNat

/-- The value of a digit string in base ten, the most significant digit first. -/
def value (digits : List Char) : Nat :=
  digits.foldl (fun total c => 10 * total + digitValue c) 0

/-- How many digits are converted at a time. -/
def blockLength : Nat := 1000

/-- Conversion block by block, each of them by a routine for short runs, so that a
multiplication of the large total serves a whole block of digits. The first number
bounds the blocks. -/
def addBlocks {m : Type → Type} [Monad m] (convert : List Char → m Nat) :
    Nat → Nat → List Char → m Nat
  | 0, total, _ => pure total
  | _ + 1, total, [] => pure total
  | blocks + 1, total, digits => do
    let block := digits.take blockLength
    let part ← convert block
    addBlocks convert blocks (total * Nat.pow 10 block.length + part) (digits.drop blockLength)

/-- The value of a digit string of any length. -/
def decimalValue (digits : List Char) : Nat :=
  Id.run (addBlocks (fun block => pure (value block)) digits.length 0 digits)

/-- A natural number in base ten. -/
def decimalText (n : Nat) : String :=
  String.ofList (Nat.toDigits 10 n)

/-- The first number that is no longer written in base ten. -/
def decimalLimit : Nat := Nat.pow 10 4300

/-- The last `width` hexadecimal digits of a number, in front of some text. -/
def hexInto : Nat → Nat → List Char → List Char
  | 0, _, text => text
  | width + 1, n, text => hexInto width (n / 16) (Nat.digitChar (n % 16) :: text)

/-- How many hexadecimal digits are split off at a time. -/
def hexBlockLength : Nat := 256

/-- The first number that does not fit into one block. -/
def hexBlockSize : Nat := Nat.pow 16 hexBlockLength

/-- A natural number in base sixteen, in front of some text. The last digits are
split off in blocks, so that few divisions have the whole number as dividend. -/
def hexBlocks (n : Nat) (text : List Char) : List Char :=
  if n < hexBlockSize then Nat.toDigits 16 n ++ text
  else hexBlocks (n / hexBlockSize) (hexInto hexBlockLength (n % hexBlockSize) text)
termination_by n
decreasing_by
  rename_i hLarge
  have hPositive : 0 < n := Nat.lt_of_lt_of_le (Nat.pow_pos (by decide)) (Nat.le_of_not_lt hLarge)
  exact Nat.div_lt_self hPositive (Nat.one_lt_pow (by decide) (by decide))

/-- A natural number as programs print it: in base ten up to 4300 digits, and
in base sixteen after `0x` above that. -/
def integerText (n : Nat) : String :=
  if n < decimalLimit then decimalText n
  else String.ofList ('0' :: 'x' :: hexBlocks n [])

end Scriptlet.Number
