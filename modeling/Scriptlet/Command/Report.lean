import Scriptlet.Project.Config
import Scriptlet.Text.Escape

namespace Scriptlet.Command

/-- Where a message goes. -/
inductive Channel where
  | output
  | errors
  deriving DecidableEq

/-- What a command cannot answer, so that it breaks off. -/
inductive Breakdown where
  | config (fault : Config.Fault)
  | disk (error : DiskError)
  | sourcesNotText
  | unwritable (obstacle : Toml.Obstacle)
  | halted (cause : Halt)
  | nullCharacter

def Breakdown.message : Breakdown → String
  | config fault => fault.message
  | disk error => error.message
  | sourcesNotText => "the directory of the sources is not text"
  | unwritable obstacle => obstacle.message
  | halted _ => "the parser halted"
  | nullCharacter => "embedded null byte"

/-- How a command ends. -/
inductive Ending where
  | exit (code : Nat)
  | broken (cause : Breakdown)

/-- What a command says, in order, and how it ends. A message may have several
lines; the last one is ended when the message is shown. -/
structure Report where
  said : List (Channel × String)
  ending : Ending

namespace Report

/-- A message in front of a report. -/
def after (channel : Channel) (message : String) (report : Report) : Report :=
  { report with said := (channel, message) :: report.said }

/-- Nothing but one message. -/
def only (channel : Channel) (message : String) (code : Nat) : Report :=
  ⟨[(channel, message)], .exit code⟩

/-- The status that the command ends with. -/
def exitCode (report : Report) : Nat :=
  match report.ending with
  | .exit code => code
  | .broken _ => 1

/-- A message as it is shown, with its colours only on a terminal. -/
def shown (terminal : Bool) (message : String) : String :=
  if terminal then message ++ "\n"
  else String.ofList (Text.eraseEscapes (message.toList ++ ['\n']))

/-- All that goes to a channel. -/
def text (report : Report) (terminal : Bool) (channel : Channel) : String :=
  String.join <| report.said.filterMap fun (goal, message) =>
    if goal = channel then some (shown terminal message) else none

end Report

end Scriptlet.Command
