import Scriptlet.Text.Printable

namespace Scriptlet.Text

/-- One lower-case hexadecimal digit of a value below sixteen. -/
def hexDigit (value : Nat) : Char :=
  if value < 10 then Char.ofNat (48 + value) else Char.ofNat (87 + value)

/-- The last `width` hexadecimal digits of a number, most significant first. -/
def hexDigits : Nat → Nat → List Char
  | 0, _ => []
  | width + 1, value => hexDigits width (value / 16) ++ [hexDigit (value % 16)]

/-- The shortest of the three numeric escapes that can hold the character:
two digits after `x`, four after `u`, eight after `U`. -/
def numericEscape (c : Char) : List Char :=
  if c.toNat < 0x100 then '\\' :: 'x' :: hexDigits 2 c.toNat
  else if c.toNat < 0x10000 then '\\' :: 'u' :: hexDigits 4 c.toNat
  else '\\' :: 'U' :: hexDigits 8 c.toNat

/-- How one character stands between quotes of the kind `mark`. Only the mark
itself and the backslash are preceded by a backslash; tab, line feed and
carriage return go by letter, other unprintable characters by number. -/
def escapeChar (mark c : Char) : List Char :=
  if c = mark ∨ c = '\\' then ['\\', c]
  else if c = '\t' then ['\\', 't']
  else if c = '\n' then ['\\', 'n']
  else if c = '\r' then ['\\', 'r']
  else if isPrintable c then [c]
  else numericEscape c

/-- Single quotes are used, unless the text has a single quote and no double
quote, in which case double quotes save the escape. -/
def quoteMark (text : List Char) : Char :=
  if text.contains '\'' && !text.contains '"' then '"' else '\''

/-- Text between quotes, on one line and in printable characters only. -/
def quotedChars (text : List Char) : List Char :=
  let mark := quoteMark text
  mark :: text.flatMap (escapeChar mark) ++ [mark]

/-- The quoted form of a text. -/
def quoted (text : String) : String :=
  String.ofList (quotedChars text.toList)

end Scriptlet.Text
