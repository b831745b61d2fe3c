import Scriptlet.Command.Check
import Scriptlet.Command.Help

namespace Scriptlet.Command

/-- The report about a command line that cannot be followed. -/
def UsageError.report (error : UsageError) : Report :=
  .only .errors error.message 2

/-- The report of one command about what it is asked for wrongly. -/
def misuse (scope : Scope) (misuse : Misuse) : Report :=
  (UsageError.mk scope misuse).report

variable {m : Type → Type} [Monad m]

/-- What is at a path from the command line. -/
def lookUp (disk : Disk m) (path : String) : m (Except Breakdown (Option EntryKind)) := do
  if path.toList.contains '\x00' then return .error .nullCharacter
  else return .ok (← disk.kindOfText? path)

/-- Checks the project that a path from the command line is in. -/
def runCheck (disk : Disk m) (path : String) (extra : List String) : m Report := do
  match ← lookUp disk path with
  | .error cause => return ⟨[], .broken cause⟩
  | .ok none => return misuse .check (.missingPath path)
  | .ok (some _) =>
    if !(← disk.mayRead (.ofText path)) then return misuse .check (.forbiddenPath path)
    else if extra.isEmpty then check disk (.ofText path)
    else return misuse .check (.extraArguments extra)

/-- What is wrong with the file of a request, if something is. It has to be
there even if the standard input is read. -/
def fileProblem (disk : Disk m) (file : Option String) : m (Option Report) := do
  match file with
  | none => return none
  | some path =>
    match ← lookUp disk path with
    | .error cause => return some ⟨[], .broken cause⟩
    | .ok none => return some (misuse .view (.missingFile path))
    | .ok (some .directory) => return some (misuse .view (.directoryForFile path))
    | .ok (some .file) =>
      if ← disk.mayRead (.ofText path) then return none
      else return some (misuse .view (.forbiddenFile path))

/-- Shows the tree that a request asks for. -/
def runView (disk : Disk m) (input : m (List Char)) (request : ViewRequest) : m Report := do
  match ← fileProblem disk request.file with
  | some problem => return problem
  | none =>
    if !request.extra.isEmpty then return misuse .view (.extraArguments request.extra)
    else if request.useInput then viewInput input request.entry request.color
    else
      match request.file with
      | some name => viewFile disk name request.entry request.color
      | none => return misuse .view .nothingToView

/-- The whole program: follows a command line on a disk, with the standard input
at hand. -/
def run (disk : Disk m) (input : m (List Char)) (arguments : List String) : m Report := do
  match Request.ofArguments arguments with
  | .error error => return error.report
  | .ok .version => return .only .output (Scope.program.name ++ ", version " ++ version) 0
  | .ok (.help scope) => return .only .output scope.help 0
  | .ok (.check path extra) => runCheck disk path extra
  | .ok (.view request) => runView disk input request

end Scriptlet.Command
