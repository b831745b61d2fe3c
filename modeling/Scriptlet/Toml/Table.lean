import Scriptlet.Toml.Fault
import Scriptlet.Toml.Value

namespace Scriptlet.Toml

/-- The names on the way to an entry in tables within tables. -/
abbrev Key := List String

/-- The entries of a table, in the order in which their keys first occur. -/
abbrev Table := List (String × Value)

namespace Table

/-- Gives an entry that is there another value. -/
def replace (entries : Table) (name : String) (value : Value) : Table :=
  entries.map fun entry => if entry.1 = name then (name, value) else entry

/-- Adds an entry, unless there is one of this name. -/
def add (entries : Table) (name : String) (value : Value) : Except Fault Table :=
  match entries.lookup name with
  | some _ => malformed "a value is given twice"
  | none => .ok (entries ++ [(name, value)])

/-- Changes the table that a key leads to. Tables that are not there are made.
The way may go through the last table of an array, if this is asked for. -/
def within (throughArrays : Bool) (change : Table → Except Fault Table) :
    Key → Table → Except Fault Table
  | [], entries => change entries
  | name :: rest, entries =>
    match entries.lookup name with
    | none => do
      let inner ← within throughArrays change rest []
      return entries ++ [(name, .table inner)]
    | some (.table inner) => do
      let inner ← within throughArrays change rest inner
      return entries.replace name (.table inner)
    | some (.array items) =>
      match throughArrays, items.getLast? with
      | true, some (.table inner) => do
        let inner ← within throughArrays change rest inner
        return entries.replace name (.array (items.dropLast ++ [.table inner]))
      | _, _ => malformed "a value is not a table"
    | some _ => malformed "a value is not a table"

/-- Adds an empty table to the array of a name. -/
def append (name : String) (entries : Table) : Except Fault Table :=
  match entries.lookup name with
  | none => .ok (entries ++ [(name, .array [.table []])])
  | some (.array items) => .ok (entries.replace name (.array (items ++ [.table []])))
  | some _ => malformed "a value is not an array"

end Table

/-- Whether a key or one it lies below is among some keys. -/
def isWithin (keys : List Key) (key : Key) : Bool :=
  keys.any fun other => !other.isEmpty && other.isPrefixOf key

/-- Whether a value cannot be added to later on. -/
def Value.isClosed : Value → Bool
  | array _ => true
  | table _ => true
  | _ => false

end Scriptlet.Toml
