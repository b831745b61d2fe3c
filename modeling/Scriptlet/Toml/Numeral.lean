import Scriptlet.Number.Digits
import Scriptlet.Toml.Fault
import Scriptlet.Toml.Value
import Scriptlet.Toml.Quotation

namespace Scriptlet.Toml

/-- A run of digits, which may have single underscores between them. -/
def digitRun (isDigit : Char → Bool) : List Char → List Char × List Char
  | [] => ([], [])
  | '_' :: c :: rest =>
    if isDigit c then
      let (digits, later) := digitRun isDigit rest
      (c :: digits, later)
    else ([], '_' :: c :: rest)
  | c :: rest =>
    if isDigit c then
      let (digits, later) := digitRun isDigit rest
      (c :: digits, later)
    else ([], c :: rest)

def isBinary (c : Char) : Bool := c = '0' || c = '1'

def isOctal (c : Char) : Bool := '0' ≤ c && c ≤ '7'

def isHexadecimal (c : Char) : Bool := (hexDigitValue? c).isSome

/-- A run that begins with a digit, if there is one. -/
def digits? (isDigit : Char → Bool) : List Char → Option (List Char × List Char)
  | [] => none
  | c :: rest => if isDigit c then some (digitRun isDigit (c :: rest)) else none

/-- The base that the letter after a leading zero announces, and its digits. -/
def baseOf? (letter : Char) : Option (Nat × (Char → Bool)) :=
  if letter = 'x' then some (16, isHexadecimal)
  else if letter = 'o' then some (8, isOctal)
  else if letter = 'b' then some (2, isBinary)
  else none

/-- An integer in another base than ten. It has no sign. -/
def basedInteger? : List Char → Option (Value × List Char)
  | '0' :: letter :: rest => do
    let (base, isDigit) ← baseOf? letter
    let (digits, rest) ← digits? isDigit rest
    let values := digits.filterMap hexDigitValue?
    some (.integer (values.foldl (fun total digit => base * total + digit) 0 : Nat), rest)
  | _ => none

/-- Whether there is a minus sign, and the text after the sign, if any. -/
def sign : List Char → Bool × List Char
  | '-' :: rest => (true, rest)
  | '+' :: rest => (false, rest)
  | text => (false, text)

/-- The digits before the point. A zero stands alone. -/
def whole? : List Char → Option (List Char × List Char)
  | '0' :: rest => some (['0'], rest)
  | text => digits? isDecimal text

/-- A point and the digits after it, if both are there. -/
def fraction? : List Char → Option (List Char × List Char)
  | '.' :: rest => digits? isDecimal rest
  | _ => none

/-- The power of ten, if one follows. -/
def exponent? : List Char → Option (Int × List Char)
  | letter :: rest =>
    if letter = 'e' ∨ letter = 'E' then do
      let (negative, rest) := sign rest
      let (digits, rest) ← digits? isDecimal rest
      let size : Int := Number.decimalValue digits
      some (if negative then -size else size, rest)
    else none
  | [] => none

/-- An integer in base ten or, with a fraction or an exponent, a floating-point
number. -/
def decimal? (text : List Char) : Option (Except Fault (Value × List Char)) := do
  let (negative, unsigned) := sign text
  let (whole, rest) ← whole? unsigned
  match fraction? rest, exponent? rest with
  | none, none =>
    if longestInteger < whole.length then some (.error (.longInteger whole.length))
    else
      let size : Int := Number.decimalValue whole
      some (.ok (.integer (if negative then -size else size), rest))
  | none, some (exponent, rest) =>
    let size := Number.Binary64.ofDecimal (Number.decimalValue whole) exponent
    some (.ok (.real (.signed negative size), rest))
  | some (fraction, rest), _ =>
    let (exponent, rest) := (exponent? rest).getD (0, rest)
    let size := Number.Binary64.ofDecimal (Number.decimalValue (whole ++ fraction))
      (exponent - fraction.length)
    some (.ok (.real (.signed negative size), rest))

/-- Infinity and the value that is not a number go by name. -/
def namedReal? (text : List Char) : Option (Value × List Char) :=
  match sign text with
  | (negative, 'i' :: 'n' :: 'f' :: rest) => some (.real (.signed negative .infinite), rest)
  | (_, 'n' :: 'a' :: 'n' :: rest) => some (.real .nan, rest)
  | _ => none

/-- A number, where a value is expected and no other kind of value is there. -/
def number (text : List Char) : Except Fault (Value × List Char) :=
  match basedInteger? text with
  | some found => .ok found
  | none =>
    match decimal? text with
    | some reading => reading
    | none =>
      match namedReal? text with
      | some found => .ok found
      | none => malformed "no value"

end Scriptlet.Toml
