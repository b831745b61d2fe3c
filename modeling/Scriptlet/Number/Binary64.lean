namespace Scriptlet.Number

/-- A non-negative binary64 number. A finite one is its significand times two
to the exponent, with the significand below 2^53 and either at least 2^52 or at
the least exponent, -1074; in this form each number has one representation. -/
inductive Binary64 where
  | finite (significand : Nat) (exponent : Int)
  | infinite
  deriving DecidableEq

/-- The quotient rounded to the nearest integer, a half to the even one. -/
def roundHalfEven (num den : Nat) : Nat :=
  let quotient := num / den
  let twice := 2 * (num % den)
  if twice < den then quotient
  else if den < twice then quotient + 1
  else if quotient % 2 = 0 then quotient
  else quotient + 1

/-- Whether `a * 2^i < b * 10^j`, in integers. -/
def lessScaled (a : Nat) (i : Int) (b : Nat) (j : Int) : Bool :=
  a * Nat.pow 2 i.toNat * Nat.pow 10 (-j).toNat <
    b * Nat.pow 10 j.toNat * Nat.pow 2 (-i).toNat

/-- The exponent of the largest power of two that is at most the quotient of
two positive numbers. -/
def floorLog2 (num den : Nat) : Int :=
  let estimate : Int := (num.log2 : Int) - den.log2
  if num * Nat.pow 2 (-estimate).toNat < den * Nat.pow 2 estimate.toNat then estimate - 1
  else estimate

namespace Binary64

def zero : Binary64 := finite 0 (-1074)

/-- The number nearest to a quotient with positive divisor; of two equally near
ones that with the even significand. -/
def ofRatio (num den : Nat) : Binary64 :=
  if num = 0 then zero
  else
    let exponent := max (floorLog2 num den - 52) (-1074)
    let significand :=
      roundHalfEven (num * Nat.pow 2 (-exponent).toNat) (den * Nat.pow 2 exponent.toNat)
    let carried := significand = Nat.pow 2 53
    let significand := if carried then Nat.pow 2 52 else significand
    let exponent := if carried then exponent + 1 else exponent
    if exponent > 971 then infinite else finite significand exponent

/-- The number nearest to `digits * 10^scale`. The first two answers need no
large power: the number of digits shows the value to be out of range. -/
def ofDecimal (digits : Nat) (scale : Int) : Binary64 :=
  if digits = 0 then zero
  else if scale > 400 then infinite
  else if scale + digits.log2 / 3 + 1 < -400 then zero
  else ofRatio (digits * Nat.pow 10 scale.toNat) (Nat.pow 10 (-scale).toNat)

end Binary64

end Scriptlet.Number
