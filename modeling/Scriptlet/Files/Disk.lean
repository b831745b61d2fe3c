import Scriptlet.Files.Path
import Scriptlet.Text.Lines
import Scriptlet.Text.Utf8

namespace Scriptlet

inductive EntryKind where
  | file
  | directory
  deriving DecidableEq

/-- Why the bytes of a file could not be had. -/
inductive ReadError where
  | missing (path : Path)
  | isDirectory (path : Path)
  | other (description : String)

namespace ReadError

def message : ReadError → String
  | missing path => "[Errno 2] No such file or directory: " ++ Text.quoted path.text
  | isDirectory path => "[Errno 21] Is a directory: " ++ Text.quoted path.text
  | other description => description

end ReadError

/-- Why the text of a file could not be had. -/
inductive TextError where
  | unreadable (error : ReadError)
  | undecodable (error : Text.Utf8Error)

def TextError.message : TextError → String
  | unreadable error => error.message
  | undecodable error => error.message

/-- Why a question about a file system has no answer: the system refuses it, or
what it asks for goes through too many directories. -/
inductive DiskError where
  | refused (description : String)
  | tooDeep

def DiskError.message : DiskError → String
  | refused description => description
  | tooDeep => "directories are nested too deeply"

/-- How many calls can be nested on a machine: when settings are read, when a value
is written, and when all that is below a directory is looked for. -/
structure Limits where
  reading : Nat
  writing : Nat
  walking : Nat

/-- The limits of a machine with a thousand nested calls, of which a program has
made a few by then. -/
def Limits.standard : Limits := ⟨980, 985, 985⟩

/-- The questions that can be asked about a file system, and the limits of the
machine that has it. Each answer may depend on when it is asked. -/
structure Disk (m : Type → Type) where
  kind? : Path → m (Except DiskError (Option EntryKind))
  mayRead : Path → m Bool
  read : Path → m (Except ReadError (List UInt8))
  below : Path → m (Except DiskError (List Location))
  workingDirectory : m Location
  limits : Limits

namespace Disk

variable {m : Type → Type} [Monad m]

/-- What is at a path that is given as text, as far as this can be found out. No
text leads nowhere. -/
def kindOfText? (disk : Disk m) (text : String) : m (Option EntryKind) := do
  if text = "" then return none
  match ← disk.kind? (Path.ofText text) with
  | .error _ => return none
  | .ok found =>
    if Path.demandsDirectory text ∧ found = some .file then return none
    return found

/-- A file as text with line feeds for line ends. -/
def readText (disk : Disk m) (path : Path) : m (Except TextError (List Char)) := do
  match ← disk.read path with
  | .error error => return .error (.unreadable error)
  | .ok bytes =>
    match Text.decodeUtf8 bytes with
    | .error error => return .error (.undecodable error)
    | .ok text => return .ok (Text.unifyLineEnds text)

/-- The lines of a named file. What is not a readable text has none. -/
def linesOf (disk : Disk m) (file : String) : m (List String) := do
  match ← disk.readText (Path.ofText file) with
  | .ok text => return Text.splitLines text
  | .error _ => return []

end Disk

end Scriptlet
