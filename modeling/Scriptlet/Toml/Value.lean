import Scriptlet.Number.Shortest
import Scriptlet.Text.Quoted
import Scriptlet.Toml.Moment

namespace Scriptlet.Toml

/-- A floating-point number with its sign, which zero has too. -/
inductive Real where
  | nan
  | signed (negative : Bool) (magnitude : Number.Binary64)
  deriving DecidableEq

namespace Real

def text : Real → String
  | nan => "nan"
  | signed negative magnitude => (if negative then "-" else "") ++ magnitude.text

def isZero : Real → Bool
  | signed _ (.finite significand _) => significand = 0
  | _ => false

end Real

/-- What can be in the way of writing a value. -/
inductive Obstacle where
  | longInteger
  | tooDeep
  deriving DecidableEq

def Obstacle.message : Obstacle → String
  | longInteger => integerLimit ""
  | tooDeep => Fault.tooDeep.message

/-- A value of a settings file. The entries of a table stay in the order in
which their keys first occur. -/
inductive Value where
  | string (text : String)
  | boolean (value : Bool)
  | integer (value : Int)
  | real (value : Real)
  | moment (value : Moment)
  | array (items : List Value)
  | table (entries : List (String × Value))

namespace Value

mutual

/-- A value as it is written inside of other values, with text in quotes. -/
def quoted : Value → String
  | string text => Text.quoted text
  | boolean value => if value then "True" else "False"
  | integer value => toString value
  | real value => value.text
  | moment value => value.quoted
  | array items => "[" ++ ", ".intercalate (quotedItems items) ++ "]"
  | table entries => "\x7b" ++ ", ".intercalate (quotedEntries entries) ++ "\x7d"

def quotedItems : List Value → List String
  | [] => []
  | item :: rest => quoted item :: quotedItems rest

def quotedEntries : List (String × Value) → List String
  | [] => []
  | (key, value) :: rest => (Text.quoted key ++ ": " ++ quoted value) :: quotedEntries rest

end

/-- A value as it is written on its own: text as it is, moments in their short
form, all else as within other values. -/
def text : Value → String
  | string text => text
  | moment value => value.text
  | value => value.quoted

mutual

/-- What comes first in the way of a value that is written where so many more
calls can be nested: an integer within that is too long for base ten, or another
value that is too far within. -/
def obstacle? (calls : Nat) : Value → Option Obstacle
  | integer value => if Number.decimalLimit ≤ value.natAbs then some .longInteger else none
  | array items => itemObstacle? calls items
  | table entries => entryObstacle? calls entries
  | _ => none

def itemObstacle? : Nat → List Value → Option Obstacle
  | _, [] => none
  | 0, _ :: _ => some .tooDeep
  | calls + 1, item :: rest => (obstacle? calls item).or (itemObstacle? (calls + 1) rest)

def entryObstacle? : Nat → List (String × Value) → Option Obstacle
  | _, [] => none
  | 0, _ :: _ => some .tooDeep
  | calls + 1, (_, value) :: rest => (obstacle? calls value).or (entryObstacle? (calls + 1) rest)

end

/-- What a value means where a choice is to be made: empty values and zeros are
against it, midnight is not. -/
def isTrue : Value → Bool
  | string text => !text.isEmpty
  | boolean value => value
  | integer value => value ≠ 0
  | real value => !value.isZero
  | moment _ => true
  | array items => !items.isEmpty
  | table entries => !entries.isEmpty

end Value

end Scriptlet.Toml
