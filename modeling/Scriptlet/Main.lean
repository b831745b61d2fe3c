import Scriptlet.Command.Run

namespace Scriptlet

/-- The kind of what is at a path of the file system, if there is anything.
What is no directory is read like a file. -/
def kindOnDisk (path : Path) : IO (Except DiskError (Option EntryKind)) := do
  try
    let real ← IO.FS.realPath path.text
    return .ok (some (if ← real.isDir then .directory else .file))
  catch
    | .noFileOrDirectory .. => return .ok none
    | .inappropriateType .. => return .ok none
    | error => return .error (.refused (toString error))

/-- The bytes of a file of the file system. -/
def readOnDisk (path : Path) : IO (Except ReadError (List UInt8)) := do
  match ← kindOnDisk path with
  | .error error => return .error (.other error.message)
  | .ok none => return .error (.missing path)
  | .ok (some .directory) => return .error (.isDirectory path)
  | .ok (some .file) =>
    try return .ok (← IO.FS.readBinFile path.text).toList
    catch error => return .error (.other (toString error))

/-- Whether a file can be opened, or a directory be listed. -/
def mayReadOnDisk (path : Path) : IO Bool := do
  try
    let real ← IO.FS.realPath path.text
    if ← real.isDir then discard real.readDir
    else discard (IO.FS.Handle.mk real .read)
    return true
  catch _ => return false

/-- The names of the entries of a directory, and which of them are directories. -/
def listing (path : Path) : IO (List (String × Bool)) := do
  let found ← (← IO.FS.realPath path.text).readDir
  found.toList.mapM fun entry => do
    return (entry.fileName, (← entry.path.symlinkMetadata).type == .dir)

/-- All that is below a directory of the file system, with so many directories
within each other at most. Links to directories are listed and not followed, and
directories that may not be listed count as empty. -/
def entriesOnDisk : Nat → Path → ExceptT DiskError IO (List Location)
  | 0, _ => throw .tooDeep
  | calls + 1, path => do
    let found ← match ← (listing path).toBaseIO with
      | .ok found => pure found
      | .error (.permissionDenied ..) => pure []
      | .error error => throw (.refused (toString error))
    let below ← found.mapM fun (text, isDirectory) => do
      match FileName.ofText? text with
      | none => return []
      | some name =>
        let inner ← if isDirectory then entriesOnDisk calls (path.descend [name]) else pure []
        return [name] :: inner.map (name :: ·)
    return below.flatten

/-- The file system of the machine. -/
def machineDisk : Disk IO where
  kind? := kindOnDisk
  mayRead := mayReadOnDisk
  read := readOnDisk
  below path := (entriesOnDisk Limits.standard.walking path).run
  workingDirectory := do
    return (Path.ofText (← IO.currentDir).toString).target []
  limits := .standard

/-- All bytes of a stream, after those that are read. -/
partial def readAll (stream : IO.FS.Stream) (done : ByteArray) : IO ByteArray := do
  let next ← stream.read 65536
  if next.isEmpty then return done else readAll stream (done ++ next)

/-- The standard input as text. -/
def readInput : IO (List Char) := do
  match Text.decodeUtf8 (← readAll (← IO.getStdin) .empty).toList with
  | .ok text => return text
  | .error error => throw (IO.userError error.message)

end Scriptlet

/-- Follows the command line, shows the report, and gives the status back. -/
def main (arguments : List String) : IO UInt32 := do
  let report ← Scriptlet.Command.run Scriptlet.machineDisk Scriptlet.readInput arguments
  let output ← IO.getStdout
  let errors ← IO.getStderr
  output.putStr (report.text (← output.isTty) .output)
  output.flush
  errors.putStr (report.text (← errors.isTty) .errors)
  match report.ending with
  | .exit _ => pure ()
  | .broken cause => errors.putStrLn cause.message
  errors.flush
  return report.exitCode.toUInt32
