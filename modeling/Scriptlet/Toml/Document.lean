import Scriptlet.Toml.Reader

namespace Scriptlet.Toml

/-- A settings file that is read in part: the table so far, the key under whose
header the reader is, the keys that may not be opened by a header again, those
that may not be from the next header on, and those of closed values. -/
structure Document where
  table : Table
  header : Key
  opened : List Key
  pending : List Key
  closed : List Key

namespace Document

def empty : Document := ⟨[], [], [], [], []⟩

/-- Takes up the keys that the next header makes final. -/
def settle (doc : Document) : Document :=
  { doc with opened := doc.pending ++ doc.opened, pending := [] }

/-- Opens a table by its header. -/
def openTable (doc : Document) (names : Key) : Except Fault Document :=
  if doc.opened.contains names || isWithin doc.closed names then
    malformed "a table is declared twice"
  else do
    let table ← doc.table.within true .ok names
    return { doc with table := table, header := names, opened := names :: doc.opened }

/-- Opens the next table of an array by its header. What was said about tables
below the one before holds no longer. -/
def openItem (doc : Document) (names : Key) : Except Fault Document :=
  if isWithin doc.closed names then malformed "a closed value is added to"
  else do
    let keep (other : Key) : Bool := !names.isPrefixOf other
    let table ← doc.table.within true (Table.append (names.getLastD "")) names.dropLast
    return { doc with
      table := table
      header := names
      opened := names :: doc.opened.filter keep
      closed := doc.closed.filter keep }

/-- The keys of the tables that a key with points goes through. -/
def passed (doc : Document) (names : Key) : List Key :=
  (List.range (names.length - 1)).map fun count => doc.header ++ names.take (count + 1)

/-- Gives a value to a key below the header. -/
def assign (doc : Document) (names : Key) (found : Value) : Except Fault Document :=
  let parent := doc.header ++ names.dropLast
  let passed := doc.passed names
  if passed.any doc.opened.contains then malformed "a table is declared twice"
  else if isWithin doc.closed parent then malformed "a closed value is added to"
  else do
    let table ← doc.table.within true (fun inner => Table.add inner (names.getLastD "") found)
      parent
    let key := doc.header ++ names
    return { doc with
      table := table
      pending := passed ++ doc.pending
      closed := if found.isClosed then key :: doc.closed else doc.closed }

/-- A header after its first bracket. -/
def headerLine (doc : Document) (text : List Char) : Except Fault (Document × List Char) := do
  match text with
  | '[' :: rest =>
    let rest := skipBlanks rest
    let (names, rest) ← key rest.length rest
    let doc ← doc.settle.openItem names
    match rest with
    | ']' :: ']' :: rest => return (doc, rest)
    | _ => malformed "header without closing brackets"
  | rest =>
    let rest := skipBlanks rest
    let (names, rest) ← key rest.length rest
    let doc ← doc.settle.openTable names
    match rest with
    | ']' :: rest => return (doc, rest)
    | _ => malformed "header without closing bracket"

/-- What a line says, in front of a comment or the end of the line. Its value is
read with so many calls within each other at most. -/
def line (calls : Nat) (doc : Document) (text : List Char) : Except Fault (Document × List Char) :=
  match text with
  | '[' :: rest => doc.headerLine rest
  | c :: _ =>
    if isBare c ∨ c = '"' ∨ c = '\'' then do
      let ((names, found), rest) ← assignment (valueWithin calls) text
      let doc ← doc.assign names found
      return (doc, rest)
    else if c = '#' ∨ c = '\n' then .ok (doc, text)
    else malformed "no statement"
  | [] => .ok (doc, text)

/-- Reads line after line, at most `rounds` of them. -/
def lines (calls : Nat) : Nat → Document → List Char → Except Fault Document
  | 0, _, _ => malformed "no end of line"
  | rounds + 1, doc, text => do
    let (doc, rest) ← doc.line calls (skipBlanks text)
    match ← skipComment (skipBlanks rest) with
    | [] => return doc
    | '\n' :: rest => lines calls rounds doc rest
    | _ => malformed "no end of line"

end Document

/-- Writes a carriage return and a line feed as a line feed, onto the text done
so far in reverse. Other carriage returns stay. -/
def joinBreaks : List Char → List Char → List Char
  | done, [] => done.reverse
  | done, '\r' :: '\n' :: rest => joinBreaks ('\n' :: done) rest
  | done, c :: rest => joinBreaks (c :: done) rest

/-- The table that a text describes, read with so many calls within each other at
most. -/
def read (calls : Nat) (text : List Char) : Except Fault Table := do
  let text := joinBreaks [] text
  return (← Document.lines calls (text.length + 1) .empty text).table

end Scriptlet.Toml
