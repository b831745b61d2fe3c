import Scriptlet.Command.View

namespace Scriptlet.Command

/-- How the names of source files end. -/
def sourceSuffix : String := ".mvs"

/-- Whether the name of an entry is that of a source file. -/
def isSource (location : Location) : Bool :=
  match location.getLast? with
  | some name => sourceSuffix.toList.isSuffixOf name.text.toList
  | none => false

/-- The entries named like source files, in the order of their locations. -/
def sourcesAmong (entries : List Location) : List Location :=
  (entries.filter isSource).mergeSort Location.le

/-- What the check of some files found: the messages in the order of the files,
and what stopped the check, if it did not come to the end. -/
structure Findings where
  messages : List String
  stopped : Option Halt

variable {m : Type → Type} [Monad m]

/-- Checks one file: the message about it, if there is one. -/
def checkFile (disk : Disk m) (entry : Entry) (renderer : Renderer) (path : Path) :
    m (Except Halt (Option String × Renderer)) := do
  match ← disk.readText path with
  | .error error => return .ok (some (cannotRead path.text error), renderer)
  | .ok text =>
    match (Source.mk path.text text).parse entry with
    | .ok _ => return .ok (none, renderer)
    | .error (.halted cause) => return .error cause
    | .error (.rejected error) =>
      let (message, renderer) ← renderer.render disk.linesOf error.diagnostic
      return .ok (some message, renderer)

/-- Checks files one after the other, whatever is wrong with those before. -/
def checkFiles (disk : Disk m) (entry : Entry) : Renderer → List Path → m Findings
  | _, [] => return ⟨[], none⟩
  | renderer, path :: rest => do
    match ← checkFile disk entry renderer path with
    | .error cause => return ⟨[], some cause⟩
    | .ok (message, renderer) =>
      let later ← checkFiles disk entry renderer rest
      return ⟨message.toList ++ later.messages, later.stopped⟩

/-- The directory that the sources are looked for in: the one that is set, or
that of the settings if there is no such directory. -/
def sourceDirectory (disk : Disk m) (directory : Location) (sources : String) :
    m (Except DiskError Path) := do
  let path := Path.join (.ofLocation directory) (.ofText sources)
  match ← disk.kind? path with
  | .error error => return .error error
  | .ok (some .directory) => return .ok path
  | .ok _ => return .ok (.ofLocation directory)

/-- The source files of a project, in the order in which they are checked. -/
def projectFiles (disk : Disk m) (directory : Location) (sources : String) :
    m (Except DiskError (List Path)) := do
  match ← sourceDirectory disk directory sources with
  | .error error => return .error error
  | .ok path =>
    match ← disk.below path with
    | .error error => return .error error
    | .ok entries => return .ok ((sourcesAmong entries).map path.descend)

/-- Checks the files of a project. -/
def checkProject (disk : Disk m) (directory : Location) (sources : String) (config : Config) :
    m Report := do
  match ← projectFiles disk directory sources with
  | .error error => return ⟨[], .broken (.disk error)⟩
  | .ok [] =>
    return ⟨[(.errors, "warning: no " ++ sourceSuffix ++ " files found"),
      (.output, "checked " ++ config.name.text ++ ": no errors")], .exit 0⟩
  | .ok files =>
    let findings ← checkFiles disk config.entry (.new config.color.isTrue) files
    let said := findings.messages.map fun message => (Channel.errors, message)
    match findings.stopped, findings.messages with
    | some cause, _ => return ⟨said, .broken (.halted cause)⟩
    | none, [] => return .only .output ("checked " ++ config.name.text ++ ": no errors") 0
    | none, _ :: _ => return ⟨said, .exit 1⟩

/-- Checks the project with certain settings. The name of the project is written
out first. The name of the directory with the sources has to be text, which shows
only when they are looked for. -/
def checkWith (disk : Disk m) (directory : Location) (config : Config) : m Report := do
  match config.name.obstacle? disk.limits.writing with
  | some obstacle => return ⟨[], .broken (.unwritable obstacle)⟩
  | none =>
    let report ← match config.sources with
      | .string sources => checkProject disk directory sources config
      | _ => pure ⟨[], .broken .sourcesNotText⟩
    return report.after .output ("checking " ++ config.name.text ++ "...")

/-- The report about settings that cannot be had. -/
def refuse (fault : Config.Fault) : Report :=
  let complaint := Report.only .errors ("error: " ++ fault.message) 1
  match fault with
  | .unreadable (.missing _) => .only .errors "error: no mvscript.toml found" 1
  | .unreadable _ => ⟨[], .broken (.config fault)⟩
  | .malformed .tooDeep => ⟨[], .broken (.config fault)⟩
  | .noTable _ => ⟨[], .broken (.config fault)⟩
  | .unwritableEntry .tooDeep => ⟨[], .broken (.config fault)⟩
  | .undecodable _ => complaint
  | .malformed _ => complaint
  | .unknownEntry _ _ => complaint
  | .unwritableEntry .longInteger => complaint

/-- Checks the project that a path is in. -/
def check (disk : Disk m) (path : Path) : m Report := do
  match ← Config.find? disk path with
  | .error error => return ⟨[], .broken (.disk error)⟩
  | .ok none => return .only .errors "error: no mvscript.toml found" 1
  | .ok (some directory) =>
    match ← Config.load disk (.ofLocation (directory ++ [Config.fileName])) with
    | .error fault => return refuse fault
    | .ok config => checkWith disk directory config

end Scriptlet.Command
