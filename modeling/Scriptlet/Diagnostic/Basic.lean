import Scriptlet.Text.Position

namespace Scriptlet

/-- A place in a source that a diagnostic points at, with an optional remark. -/
structure Pointer where
  span : Span
  message : String
  deriving DecidableEq

/-- One error as it is shown to a user. -/
structure Diagnostic where
  code : String
  message : String
  pointers : List Pointer
  notes : List String
  deriving DecidableEq

namespace Diagnostic

/-- One line for several diagnostics: their number and their messages. -/
def summary (diagnostics : List Diagnostic) : String :=
  toString diagnostics.length ++ " error(s): " ++
    "; ".intercalate (diagnostics.map Diagnostic.message)

end Diagnostic

end Scriptlet
