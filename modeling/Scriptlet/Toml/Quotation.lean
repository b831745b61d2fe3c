import Scriptlet.Toml.Fault

namespace Scriptlet.Toml

def hexDigitValue? (c : Char) : Option Nat :=
  if '0' ≤ c ∧ c ≤ '9' then some (c.toNat - 48)
  else if 'a' ≤ c ∧ c ≤ 'f' then some (c.toNat - 87)
  else if 'A' ≤ c ∧ c ≤ 'F' then some (c.toNat - 55)
  else none

/-- The character whose code is given in hexadecimal digits, if all are digits
and the code is that of a character. -/
def hexChar? (digits : List Char) : Option Char := do
  let values ← digits.mapM hexDigitValue?
  let code := values.foldl (fun total digit => 16 * total + digit) 0
  if code.isValidChar then some (Char.ofNat code) else none

/-- The character that a letter after a backslash stands for. -/
def escaped? (c : Char) : Option Char :=
  if c = 'b' then some '\x08'
  else if c = 't' then some '\t'
  else if c = 'n' then some '\n'
  else if c = 'f' then some '\x0c'
  else if c = 'r' then some '\r'
  else if c = '"' ∨ c = '\\' then some c
  else none

/-- Up to two quotation marks directly after the closing three still belong to
the text. -/
def closeLong (mark : Char) (done rest : List Char) : List Char × List Char :=
  match rest with
  | a :: rest =>
    if a = mark then
      match rest with
      | b :: later =>
        if b = mark then ((mark :: mark :: done).reverse, later) else ((mark :: done).reverse, rest)
      | [] => ((mark :: done).reverse, rest)
    else (done.reverse, a :: rest)
  | [] => (done.reverse, [])

/-- Text between single quotation marks, after the first one. -/
def literal : List Char → List Char → Except Fault (List Char × List Char)
  | _, [] => malformed "text without closing quotation mark"
  | done, c :: rest =>
    if c = '\'' then .ok (done.reverse, rest)
    else if isForbidden false c then malformed "control character in text"
    else literal (c :: done) rest

/-- Text between three single quotation marks, after the first three. -/
def longLiteral : List Char → List Char → Except Fault (List Char × List Char)
  | _, [] => malformed "text without closing quotation marks"
  | done, '\'' :: '\'' :: '\'' :: rest => .ok (closeLong '\'' done rest)
  | done, c :: rest =>
    if isForbidden true c then malformed "control character in text"
    else longLiteral (c :: done) rest

/-- How text between double quotation marks is being read: as it stands, or past
blanks after a backslash, which hides the end of its line and all blanks and
line ends after that. -/
inductive Gap where
  | closed
  | line
  | beyond
  deriving DecidableEq

/-- Text between double quotation marks, or with `long` between three of them,
after the opening ones. -/
def basic (long : Bool) : Gap → List Char → List Char → Except Fault (List Char × List Char)
  | _, _, [] => malformed "text without closing quotation mark"
  | .line, done, c :: rest =>
    if isBlank c then basic long .line done rest
    else if c = '\n' then basic long .beyond done rest
    else malformed "stray backslash"
  | gap, done, c :: rest =>
    if gap = .beyond ∧ isBlankOrBreak c then basic long .beyond done rest
    else if c = '"' then
      if long then
        match rest with
        | '"' :: '"' :: later => .ok (closeLong '"' done later)
        | _ => basic long .closed (c :: done) rest
      else .ok (done.reverse, rest)
    else if c = '\\' then
      match rest with
      | [] => malformed "stray backslash"
      | 'u' :: a :: b :: c :: d :: later =>
        match hexChar? [a, b, c, d] with
        | some decoded => basic long .closed (decoded :: done) later
        | none => malformed "invalid character code"
      | 'U' :: a :: b :: c :: d :: e :: f :: g :: h :: later =>
        match hexChar? [a, b, c, d, e, f, g, h] with
        | some decoded => basic long .closed (decoded :: done) later
        | none => malformed "invalid character code"
      | letter :: later =>
        if long ∧ letter = '\n' then basic long .beyond done later
        else if long ∧ isBlank letter then basic long .line done later
        else
          match escaped? letter with
          | some decoded => basic long .closed (decoded :: done) later
          | none => malformed "stray backslash"
    else if isForbidden long c then malformed "control character in text"
    else basic long .closed (c :: done) rest

/-- A line end directly after the opening marks of long text is left out. -/
def skipFirstBreak : List Char → List Char
  | '\n' :: rest => rest
  | text => text

/-- Text in quotation marks, long or short, where a quotation mark is next. -/
def quotation : List Char → Except Fault (List Char × List Char)
  | '"' :: '"' :: '"' :: rest => basic true .closed [] (skipFirstBreak rest)
  | '"' :: rest => basic false .closed [] rest
  | '\'' :: '\'' :: '\'' :: rest => longLiteral [] (skipFirstBreak rest)
  | '\'' :: rest => literal [] rest
  | _ => malformed "no text"

end Scriptlet.Toml
