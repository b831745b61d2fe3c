import Scriptlet.Syntax.Dump

namespace Scriptlet

/-- What parsers described as data yield: plain values, the trees and names of
the grammar, and the two kinds of values that can stand for an operator. A
number is its mantissa divided by ten to the number of decimal places. -/
inductive Value where
  | absent
  | boolean (value : Bool)
  | number (mantissa : Int) (places : Nat)
  | text (value : String)
  | list (items : List Value)
  | record (fields : List (String × Value))
  | typeName (type : TypeName)
  | node (node : Node)
  | operator (op : Operator)
  | tagged (tag : Value)
  deriving Inhabited

namespace Value

/-- Combines two operands. A grammar operator makes an operation of two
expressions, and a tag is put in front of the two. -/
def combine : Value → Value → Value → Value
  | operator op, node (.expr left), node (.expr right) => node (.expr (.operation op left right))
  | tagged tag, left, right => list [tag, left, right]
  | _, _, _ => absent

/-- The characters of a text; other values have none. -/
def chars : Value → List Char
  | text value => value.toList
  | _ => []

/-- The texts of a list in one; a text alone stays as it is. -/
def joined : Value → Value
  | list items => text (String.ofList (items.flatMap chars))
  | value => value

/-- The number that a text of digits denotes. -/
def parsed : Value → Value
  | text digits => number (Number.decimalValue digits.toList) 0
  | value => value

/-- The number of characters of a text or of items of a list. -/
def length : Value → Value
  | text value => number value.length 0
  | list items => number items.length 0
  | value => value

/-- The first character of a text or item of a list. -/
def first : Value → Value
  | text value => text (String.ofList (value.toList.take 1))
  | list (item :: _) => item
  | _ => absent

/-- The number that is one greater. -/
def successor : Value → Value
  | number mantissa places => number (mantissa + Int.pow 10 places) places
  | value => value

/-- What a value looks like as the root of a dump: a tree line by line, a text
as it is, anything else in one line. -/
def dump : Value → List String
  | node n => n.dump
  | text value => [value]
  | typeName type =>
    ["TypeName: <TypeName." ++ type.label ++ ": " ++ Text.quoted type.word ++ ">"]
  | _ => ["NoneType: None"]

end Value

end Scriptlet
