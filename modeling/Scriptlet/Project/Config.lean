import Scriptlet.Entry
import Scriptlet.Files.Disk
import Scriptlet.Toml.Document

namespace Scriptlet

/-- The settings of a project. Only the entry is checked when they are read, so
the others may be values of any kind. -/
structure Config where
  name : Toml.Value
  version : Toml.Value
  entry : Entry
  sources : Toml.Value
  color : Toml.Value

namespace Config

/-- Why there are no settings. -/
inductive Fault where
  | unreadable (error : ReadError)
  | undecodable (error : Text.Utf8Error)
  | malformed (error : Toml.Fault)
  | noTable (name : String)
  | unknownEntry (path : Path) (found : Toml.Value)
  | unwritableEntry (obstacle : Toml.Obstacle)

/-- What is set where a file says nothing. -/
def default : Config where
  name := .string "untitled"
  version := .string "0.0.0"
  entry := .program
  sources := .string "src"
  color := .boolean true

/-- The entries of a section. A section that is not there has none, and one that
is not a table is refused. -/
def sectionOf (settings : Toml.Table) (name : String) : Except Fault Toml.Table :=
  match settings.lookup name with
  | none => .ok []
  | some (.table entries) => .ok entries
  | some _ => .error (.noTable name)

/-- What is wrong with a value that names no entry. The complaint has to write the
value out. -/
def refuseEntry (limits : Limits) (path : Path) (found : Toml.Value) : Fault :=
  match found.obstacle? limits.writing with
  | some obstacle => .unwritableEntry obstacle
  | none => .unknownEntry path found

/-- The entry that a value names. -/
def entryOf (limits : Limits) (path : Path) : Toml.Value → Except Fault Entry
  | .string name =>
    match Entry.ofName? name with
    | some entry => .ok entry
    | none => .error (refuseEntry limits path (.string name))
  | found => .error (refuseEntry limits path found)

/-- The settings that a table describes. Sections and entries without meaning
are passed over. -/
def ofTable (limits : Limits) (path : Path) (settings : Toml.Table) : Except Fault Config := do
  let package ← sectionOf settings "package"
  let parse ← sectionOf settings "parse"
  let entry ← entryOf limits path ((parse.lookup "entry").getD (.string default.entry.name))
  let diagnostics ← sectionOf settings "diagnostics"
  return {
    name := (package.lookup "name").getD default.name
    version := (package.lookup "version").getD default.version
    entry := entry
    sources := (parse.lookup "sources").getD default.sources
    color := (diagnostics.lookup "color").getD default.color }

/-- The settings that the bytes of a file describe. -/
def ofBytes (limits : Limits) (path : Path) (bytes : List UInt8) : Except Fault Config := do
  let text ← (Text.decodeUtf8 bytes).mapError .undecodable
  let settings ← (Toml.read limits.reading text).mapError .malformed
  ofTable limits path settings

/-- The name of the file that settings are kept in. -/
def fileName : FileName := ⟨"mvscript.toml", by decide⟩

variable {m : Type → Type} [Monad m]

/-- The settings in a file. -/
def load (disk : Disk m) (path : Path) : m (Except Fault Config) := do
  match ← disk.read path with
  | .error error => return .error (.unreadable error)
  | .ok bytes => return ofBytes disk.limits path bytes

/-- A location and all those above it, up to the root. -/
def ancestors (location : Location) : List Location :=
  (List.range (location.length + 1)).map fun up => location.take (location.length - up)

/-- The first of some directories that has something under the name of the
settings file. -/
def firstWith (disk : Disk m) : List Location → m (Except DiskError (Option Location))
  | [] => return .ok none
  | directory :: rest => do
    match ← disk.kind? (.ofLocation (directory ++ [fileName])) with
    | .error error => return .error error
    | .ok (some _) => return .ok (some directory)
    | .ok none => firstWith disk rest

/-- The nearest directory with settings, from a path upwards. A path to a file
stands for the directory of the file. -/
def find? (disk : Disk m) (start : Path) : m (Except DiskError (Option Location)) := do
  let target := start.target (← disk.workingDirectory)
  match ← disk.kind? (.ofLocation target) with
  | .error error => return .error error
  | .ok (some .file) => firstWith disk (ancestors target.dropLast)
  | .ok _ => firstWith disk (ancestors target)

/-- What is said where there are no settings. -/
def notFound : String :=
  "No " ++ fileName.text ++ " found in any parent directory"

namespace Fault

def message : Fault → String
  | unreadable error => error.message
  | undecodable error => error.message
  | malformed error => error.message
  | noTable name => "section " ++ name ++ " is not a table"
  | unknownEntry path found =>
    path.text ++ ": parse.entry must be one of " ++
      ", ".intercalate (Entry.all.map Entry.name) ++ ", got " ++ found.quoted
  | unwritableEntry obstacle => obstacle.message

end Fault

end Config

end Scriptlet
