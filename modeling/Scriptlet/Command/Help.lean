import Scriptlet.Command.Arguments

namespace Scriptlet.Command

/-- The version that the program gives as its own. -/
def version : String := "0.1.0"

namespace Scope

def usage (scope : Scope) : String :=
  "Usage: " ++ scope.invocation ++ " " ++ scope.synopsis

def helpHint (scope : Scope) : String :=
  "Try '" ++ scope.invocation ++ " --help' for help."

/-- What a command is for and what its options do. -/
def description : Scope → List String
  | program =>
    ["  The mvscript language parser.",
      "",
      "Options:",
      "  --version  Show the version and exit.",
      "  --help     Show this message and exit.",
      "",
      "Commands:",
      "  check  Parse every source file of an mvscript project.",
      "  view   View the AST of an mvscript source file."]
  | check =>
    ["  Parse every source file of an mvscript project.",
      "",
      "Options:",
      "  --help  Show this message and exit."]
  | view =>
    ["  View the AST of an mvscript source file.",
      "",
      "Options:",
      "  --entry [program|statement|expression|declaration]",
      "                                  Grammar production to parse the input with.",
      "                                  [default: program]",
      "  --stdin                         Read source from stdin.",
      "  --color / --no-color            Colorize diagnostics.",
      "  --help                          Show this message and exit."]

def help (scope : Scope) : String :=
  "\n".intercalate (scope.usage :: "" :: scope.description)

end Scope

namespace UsageError

/-- The message about a command line that cannot be followed. -/
def message (error : UsageError) : String :=
  let complaint := "Error: " ++ error.misuse.message
  if error.misuse.showsUsage then
    "\n".intercalate [error.scope.usage, error.scope.helpHint, "", complaint]
  else complaint

end UsageError

end Scriptlet.Command
