namespace Scriptlet.Toml

/-- Why a text is no settings file. -/
inductive Fault where
  | malformed (description : String)
  | tooDeep
  | longInteger (digits : Nat)
  deriving DecidableEq

/-- The number of digits that are converted to an integer, or from one, at
most. -/
def longestInteger : Nat := 4300

/-- The complaint about an integer with more digits. -/
def integerLimit (details : String) : String :=
  "Exceeds the limit (" ++ toString longestInteger ++
    " digits) for integer string conversion" ++ details ++
    "; use sys.set_int_max_str_digits() to increase the limit"

def Fault.message : Fault → String
  | malformed description => description
  | tooDeep => "values are nested too deeply"
  | longInteger digits => integerLimit (": value has " ++ toString digits ++ " digits")

/-- A text is refused. -/
def malformed {α : Type} (description : String) : Except Fault α :=
  .error (.malformed description)

/-- The characters that separate words on a line. -/
def isBlank (c : Char) : Bool := c = ' ' || c = '\t'

def isBlankOrBreak (c : Char) : Bool := isBlank c || c = '\n'

def isDecimal (c : Char) : Bool := '0' ≤ c && c ≤ '9'

/-- The control characters, which no text may hold as they are. The tab is not
among them, and where lines may break the line feed is not either. -/
def isForbidden (breaks : Bool) (c : Char) : Bool :=
  (c.toNat < 32 || c.toNat = 127) && c ≠ '\t' && !(breaks && c = '\n')

def skipBlanks (text : List Char) : List Char := text.dropWhile isBlank

/-- The rest of a text after a comment, up to the end of its line. -/
def skipComment : List Char → Except Fault (List Char)
  | '#' :: rest =>
    if (rest.takeWhile (· ≠ '\n')).any (isForbidden false) then
      malformed "control character in a comment"
    else .ok (rest.dropWhile (· ≠ '\n'))
  | text => .ok text

/-- The rest of a text after blanks, line ends and comments. At most `rounds`
comments are skipped, and each of them takes at least one character. -/
def skipLines : Nat → List Char → Except Fault (List Char)
  | 0, text => .ok text
  | rounds + 1, text => do
    match ← skipComment (text.dropWhile isBlankOrBreak) with
    | '\n' :: rest => skipLines rounds rest
    | rest => .ok rest

end Scriptlet.Toml
