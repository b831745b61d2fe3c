import Scriptlet.Command.Report
import Scriptlet.Diagnostic.Renderer
import Scriptlet.Syntax.Dump

namespace Scriptlet.Command

/-- The complaint about a file whose text cannot be had. -/
def cannotRead (name : String) (error : TextError) : String :=
  "error: cannot read " ++ name ++ ": " ++ error.message

/-- Shows the tree of a source, or what is wrong with it. -/
def viewSource (source : Source) (entry : Entry) (color : Bool) : Report :=
  match source.parse entry with
  | .ok node => ⟨node.dump.map fun line => (.output, line), .exit 0⟩
  | .error (.halted cause) => ⟨[], .broken (.halted cause)⟩
  | .error (.rejected error) =>
    let renderer := (Renderer.new color).addSource source.filename source.text
    .only .errors (renderer.layout error.diagnostic) 1

variable {m : Type → Type} [Monad m]

/-- Shows the tree of a file, which goes by the name it is given under. -/
def viewFile (disk : Disk m) (name : String) (entry : Entry) (color : Bool) : m Report := do
  match ← disk.readText (.ofText name) with
  | .error error => return .only .errors (cannotRead name error) 1
  | .ok text => return viewSource ⟨name, text⟩ entry color

/-- The name that the standard input goes by. -/
def inputName : String := "<stdin>"

/-- Shows the tree of a text from the standard input. -/
def viewInput (input : m (List Char)) (entry : Entry) (color : Bool) : m Report := do
  return viewSource ⟨inputName, Text.unifyLineEnds (← input)⟩ entry color

end Scriptlet.Command
