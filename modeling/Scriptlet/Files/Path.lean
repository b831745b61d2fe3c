namespace Scriptlet

/-- What an entry of a directory may be called: anything but the empty text, the
names of the directory itself and of its parent, and texts with a slash. -/
def isFileName (text : String) : Bool :=
  text ≠ "" && text ≠ "." && text ≠ ".." && !text.toList.contains '/'

/-- The name of an entry of a directory. -/
structure FileName where
  text : String
  valid : isFileName text = true
  deriving DecidableEq

def FileName.ofText? (text : String) : Option FileName :=
  if valid : isFileName text = true then some ⟨text, valid⟩ else none

/-- Where something is in the file system: the names on the way from the root. -/
abbrev Location := List FileName

namespace Location

def text (location : Location) : String :=
  "/" ++ "/".intercalate (location.map FileName.text)

/-- The order of two locations name by name, each name by code points. A
location comes before what is below it. -/
def le : Location → Location → Bool
  | [], _ => true
  | _ :: _, [] => false
  | a :: as, b :: bs => if a = b then le as bs else decide (a.text < b.text)

end Location

/-- One step of a path. -/
inductive Step where
  | up
  | down (name : FileName)
  deriving DecidableEq

namespace Step

/-- The step that a piece between slashes stands for. An empty piece and a
single dot lead nowhere. -/
def ofText? (piece : String) : Option Step :=
  if piece = ".." then some up else (FileName.ofText? piece).map down

def text : Step → String
  | up => ".."
  | down name => name.text

end Step

/-- Where a path starts. Exactly two slashes are a start of their own, which is
written differently and leads to the same place as one. -/
inductive Anchor where
  | workingDirectory
  | root
  | doubleRoot
  deriving DecidableEq

def Anchor.text : Anchor → String
  | workingDirectory => ""
  | root => "/"
  | doubleRoot => "//"

/-- A way to a place in the file system. -/
structure Path where
  anchor : Anchor
  steps : List Step
  deriving DecidableEq

namespace Path

/-- The texts between the slashes of a text. -/
def pieces : List Char → List (List Char)
  | [] => [[]]
  | c :: rest =>
    if c = '/' then [] :: pieces rest
    else
      match pieces rest with
      | [] => [[c]]
      | piece :: later => (c :: piece) :: later

/-- What the slashes at the beginning of a text say. -/
def anchorOf : List Char → Anchor
  | '/' :: '/' :: '/' :: _ => .root
  | '/' :: '/' :: _ => .doubleRoot
  | '/' :: _ => .root
  | _ => .workingDirectory

def ofText (text : String) : Path where
  anchor := anchorOf text.toList
  steps := (pieces text.toList).filterMap fun piece => Step.ofText? (String.ofList piece)

/-- The shortest text of the path. A path that goes nowhere is a dot. -/
def text (path : Path) : String :=
  if path.anchor = .workingDirectory ∧ path.steps = [] then "."
  else path.anchor.text ++ "/".intercalate (path.steps.map Step.text)

/-- The direct path to a location. -/
def ofLocation (location : Location) : Path :=
  ⟨.root, location.map .down⟩

/-- The second path taken from the end of the first one. -/
def join (first second : Path) : Path :=
  match second.anchor with
  | .workingDirectory => ⟨first.anchor, first.steps ++ second.steps⟩
  | _ => second

/-- The path to something below the end of the path. -/
def descend (path : Path) (location : Location) : Path :=
  ⟨path.anchor, path.steps ++ location.map .down⟩

/-- Where the path leads if every step can be taken: a step up undoes the last
step down, and above the root there is the root. -/
def target (path : Path) (workingDirectory : Location) : Location :=
  let start := if path.anchor = .workingDirectory then workingDirectory else []
  path.steps.foldl
    (fun location step =>
      match step with
      | .up => location.dropLast
      | .down name => location ++ [name])
    start

/-- A path whose text ends in a slash or in a single dot has to lead to a
directory. -/
def demandsDirectory (text : String) : Bool :=
  match (pieces text.toList).getLast? with
  | some piece => piece.isEmpty || piece = ['.']
  | none => false

end Path

end Scriptlet
