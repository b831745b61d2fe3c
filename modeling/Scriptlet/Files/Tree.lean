import Scriptlet.Files.Disk

namespace Scriptlet

/-- The contents of a file system in memory. Of two entries of one name in a
directory the first one counts. -/
inductive FileTree where
  | file (bytes : List UInt8)
  | directory (children : List (FileName × FileTree))
  deriving Inhabited

namespace FileTree

/-- The tree with nothing in it. -/
def empty : FileTree := .directory []

/-- What is directly in a directory under a name. -/
def child? : FileTree → FileName → Option FileTree
  | .file _, _ => none
  | .directory children, name => children.lookup name

/-- What is at a location. -/
def at? : FileTree → Location → Option FileTree
  | tree, [] => some tree
  | tree, name :: rest => (tree.child? name).bind fun child => child.at? rest

def kind : FileTree → EntryKind
  | .file _ => .file
  | .directory _ => .directory

/-- Puts an entry into a directory in place of the one of this name. A file
becomes a directory with this entry alone. -/
def setChild (tree : FileTree) (name : FileName) (child : FileTree) : FileTree :=
  match tree with
  | .file _ => .directory [(name, child)]
  | .directory children => .directory ((name, child) :: children.filter fun c => c.1 ≠ name)

/-- Puts a tree at a location. The directories on the way are made. -/
def insert (tree : FileTree) (new : FileTree) : Location → FileTree
  | [] => new
  | name :: rest => tree.setChild name (((tree.child? name).getD empty).insert new rest)

/-- Takes away what is at a location, if there is anything. -/
def erase : FileTree → Location → FileTree
  | .file bytes, _ => .file bytes
  | tree, [] => tree
  | .directory children, [name] => .directory (children.filter fun c => c.1 ≠ name)
  | tree, name :: rest =>
    match tree.child? name with
    | some child => tree.setChild name (child.erase rest)
    | none => tree

mutual

/-- The locations of all that is below a directory. -/
def entries : FileTree → List Location
  | .file _ => []
  | .directory children => entriesOf children

/-- The locations of all that a list of entries holds. -/
def entriesOf : List (FileName × FileTree) → List Location
  | [] => []
  | (name, tree) :: rest => [name] :: (tree.entries.map (name :: ·) ++ entriesOf rest)

end

mutual

/-- How many directories there are within each other. -/
def depth : FileTree → Nat
  | .file _ => 0
  | .directory children => depthOf children + 1

def depthOf : List (FileName × FileTree) → Nat
  | [] => 0
  | (_, tree) :: rest => max tree.depth (depthOf rest)

end

/-- Follows steps from a location. Each step, also one up, can only be taken
from a directory. -/
def follow (tree : FileTree) : Location → List Step → Option Location
  | location, [] => if (tree.at? location).isSome then some location else none
  | location, step :: rest =>
    match tree.at? location, step with
    | some (.directory _), .up => tree.follow location.dropLast rest
    | some (.directory _), .down name => tree.follow (location ++ [name]) rest
    | _, _ => none

/-- What a path leads to. -/
def find? (tree : FileTree) (workingDirectory : Location) (path : Path) : Option FileTree :=
  let start := if path.anchor = .workingDirectory then workingDirectory else []
  (tree.follow start path.steps).bind tree.at?

/-- The tree as a disk of a machine, seen from a directory in it. Everything in it
may be read. -/
def diskWithin (limits : Limits) (tree : FileTree) (workingDirectory : Location) : Disk Id where
  kind? path := .ok ((tree.find? workingDirectory path).map kind)
  mayRead _ := true
  read path :=
    match tree.find? workingDirectory path with
    | none => .error (.missing path)
    | some (.directory _) => .error (.isDirectory path)
    | some (.file bytes) => .ok bytes
  below path :=
    match tree.find? workingDirectory path with
    | none => .ok []
    | some found => if found.depth ≤ limits.walking then .ok found.entries else .error .tooDeep
  workingDirectory := workingDirectory
  limits := limits

def disk (tree : FileTree) (workingDirectory : Location) : Disk Id :=
  tree.diskWithin .standard workingDirectory

end FileTree

end Scriptlet
