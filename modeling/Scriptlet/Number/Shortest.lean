import Scriptlet.Number.Binary64
import Scriptlet.Number.Digits

namespace Scriptlet.Number

/-- The decimal number `digits * 10^exponent`. -/
structure Decimal where
  digits : Nat
  exponent : Int
  deriving DecidableEq

namespace Decimal

/-- Moves trailing zeros of the digits into the exponent, at most `count`. -/
def trim : Nat → Decimal → Decimal
  | 0, d => d
  | count + 1, d =>
    if d.digits ≠ 0 ∧ d.digits % 10 = 0 then trim count ⟨d.digits / 10, d.exponent + 1⟩ else d

/-- Whether a decimal number is read as the given binary one. -/
def readsAs (d : Decimal) (x : Binary64) : Bool :=
  Binary64.ofDecimal d.digits d.exponent = x

/-- Digits with a point and at least one digit on either side of it when the
leading digit stands for 10^-4 up to 10^15, otherwise one digit before the
point and a signed exponent of two or more digits. -/
def text (d : Decimal) : String :=
  let digits := Nat.toDigits 10 d.digits
  let count : Int := digits.length
  let point := count + d.exponent
  let zeros (n : Int) : List Char := List.replicate n.toNat '0'
  if -4 < point ∧ point ≤ 16 then
    String.ofList <|
      if point ≤ 0 then '0' :: '.' :: zeros (-point) ++ digits
      else if count ≤ point then digits ++ zeros (point - count) ++ ['.', '0']
      else digits.take point.toNat ++ '.' :: digits.drop point.toNat
  else
    let exponent := point - 1
    let size := Nat.toDigits 10 exponent.natAbs
    let padded := if size.length < 2 then '0' :: size else size
    let mantissa := match digits with
      | [] => []
      | [digit] => [digit]
      | digit :: rest => digit :: '.' :: rest
    String.ofList (mantissa ++ 'e' :: (if exponent < 0 then '-' else '+') :: padded)

end Decimal

/-- The least power of ten above `significand * 2^exponent`, sought upwards
from `low` in a given number of steps. -/
def tenAbove (significand : Nat) (exponent : Int) : Nat → Int → Int
  | 0, low => low
  | steps + 1, low =>
    if lessScaled significand exponent 1 low then low
    else tenAbove significand exponent steps (low + 1)

/-- The decimal number of a given exponent that reads as the value, if there is
one: the neighbours of the value on that grid are tried, and when both read as
it the nearer one is taken, or the even one of two equally near. -/
def onGrid? (significand : Nat) (exponent grid : Int) : Option Decimal :=
  let num := significand * Nat.pow 2 exponent.toNat * Nat.pow 10 (-grid).toNat
  let den := Nat.pow 2 (-exponent).toNat * Nat.pow 10 grid.toNat
  let low := num / den
  let x := Binary64.finite significand exponent
  let below : Decimal := ⟨low, grid⟩
  let above : Decimal := ⟨low + 1, grid⟩
  let nearest : Decimal := ⟨roundHalfEven num den, grid⟩
  if below.readsAs x then
    if above.readsAs x then some nearest else some below
  else if above.readsAs x then some above
  else none

/-- The grids of 1, 2, … 17 significant digits, the coarsest first. -/
def shortestFrom (significand : Nat) (exponent top : Int) : Nat → Int → Option Decimal
  | 0, _ => none
  | tries + 1, digits =>
    match onGrid? significand exponent (top - digits) with
    | some d => some d
    | none => shortestFrom significand exponent top tries (digits + 1)

/-- All digits of a binary number. -/
def exactDecimal (significand : Nat) (exponent : Int) : Decimal :=
  if 0 ≤ exponent then ⟨significand * Nat.pow 2 exponent.toNat, 0⟩
  else ⟨significand * Nat.pow 5 (-exponent).toNat, exponent⟩

/-- The decimal number with the fewest digits that reads as the given one, and
the nearest of those. -/
def shortestDecimal (significand : Nat) (exponent : Int) : Decimal :=
  let log : Int := significand.log2 + exponent
  let top := tenAbove significand exponent 6 (log * 30103 / 100000 - 1)
  let found := (shortestFrom significand exponent top 17 1).getD
    (exactDecimal significand exponent)
  found.trim 400

/-- A number as programs print it, with the fewest digits that read back. -/
def Binary64.text : Binary64 → String
  | .infinite => "inf"
  | .finite significand exponent =>
    if significand = 0 then "0.0"
    else (shortestDecimal significand exponent).text

end Scriptlet.Number
