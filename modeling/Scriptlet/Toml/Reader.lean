import Scriptlet.Toml.Numeral
import Scriptlet.Toml.Table

namespace Scriptlet.Toml

/-- The characters that names may have without quotation marks. -/
def isBare (c : Char) : Bool :=
  ('a' ≤ c && c ≤ 'z') || ('A' ≤ c && c ≤ 'Z') || isDecimal c || c = '-' || c = '_'

/-- One name, bare or as text on one line. -/
def keyPart : List Char → Except Fault (String × List Char)
  | '"' :: rest => do
    let (name, rest) ← basic false .closed [] rest
    return (String.ofList name, rest)
  | '\'' :: rest => do
    let (name, rest) ← literal [] rest
    return (String.ofList name, rest)
  | text =>
    match text.takeWhile isBare with
    | [] => malformed "no key"
    | name => .ok (String.ofList name, text.dropWhile isBare)

/-- Names with points between them, at most `rounds` of them. -/
def key : Nat → List Char → Except Fault (Key × List Char)
  | 0, _ => malformed "no key"
  | rounds + 1, text => do
    let (name, rest) ← keyPart text
    match skipBlanks rest with
    | '.' :: rest =>
      let (names, rest) ← key rounds (skipBlanks rest)
      return (name :: names, rest)
    | rest => return ([name], rest)

/-- A key, an equals sign and a value. -/
def assignment (value : List Char → Except Fault (Value × List Char)) (text : List Char) :
    Except Fault ((Key × Value) × List Char) := do
  match ← key text.length text with
  | (names, '=' :: rest) =>
    let (found, rest) ← value (skipBlanks rest)
    return ((names, found), rest)
  | _ => malformed "no equals sign after a key"

/-- The items of an array after the bracket or a comma, with those before in
reverse. -/
def items (value : List Char → Except Fault (Value × List Char)) :
    Nat → List Value → List Char → Except Fault (Value × List Char)
  | 0, _, _ => malformed "array without closing bracket"
  | rounds + 1, done, text => do
    match ← skipLines (text.length + 1) text with
    | ']' :: rest => return (.array done.reverse, rest)
    | text =>
      let (item, rest) ← value text
      match ← skipLines (rest.length + 1) rest with
      | ']' :: rest => return (.array (item :: done).reverse, rest)
      | ',' :: rest => items value rounds (item :: done) rest
      | _ => malformed "array without closing bracket"

/-- The entries of an inline table after the brace or a comma, with the table so
far and the keys of those values in it that are closed. -/
def entries (value : List Char → Except Fault (Value × List Char)) :
    Nat → List Key → Table → List Char → Except Fault (Value × List Char)
  | 0, _, _, _ => malformed "table without closing brace"
  | rounds + 1, closed, table, text => do
    let ((names, found), rest) ← assignment value text
    if isWithin closed names then malformed "a closed value is added to"
    else
      let table ← table.within false (fun inner => Table.add inner (names.getLastD "") found)
        names.dropLast
      match skipBlanks rest with
      | '\x7d' :: rest => return (.table table, rest)
      | ',' :: rest =>
        entries value rounds (if found.isClosed then names :: closed else closed) table
          (skipBlanks rest)
      | _ => malformed "table without closing brace"

/-- An inline table after its opening brace. -/
def inlineTable (value : List Char → Except Fault (Value × List Char)) (text : List Char) :
    Except Fault (Value × List Char) :=
  match skipBlanks text with
  | '\x7d' :: rest => .ok (.table [], rest)
  | text => entries value text.length [] [] text

/-- A value that holds no others. -/
def plainValue (text : List Char) : Except Fault (Value × List Char) :=
  match text with
  | 't' :: 'r' :: 'u' :: 'e' :: rest => .ok (.boolean true, rest)
  | 'f' :: 'a' :: 'l' :: 's' :: 'e' :: rest => .ok (.boolean false, rest)
  | c :: _ =>
    if c = '"' ∨ c = '\'' then do
      let (found, rest) ← quotation text
      return (.string (String.ofList found), rest)
    else
      match moment? text with
      | some reading => do
        let (found, rest) ← reading
        return (.moment found, rest)
      | none => number text
  | [] => malformed "no value"

/-- A value that is read where so many more calls can be nested. To go into an
array takes two of them, and to go into an inline table takes three. -/
def valueWithin : Nat → List Char → Except Fault (Value × List Char)
  | calls + 2, '[' :: rest => items (valueWithin calls) (rest.length + 1) [] rest
  | calls + 3, '\x7b' :: rest => inlineTable (valueWithin calls) rest
  | _, '[' :: _ => .error .tooDeep
  | _, '\x7b' :: _ => .error .tooDeep
  | _, text => plainValue text

end Scriptlet.Toml
