import Scriptlet.Diagnostic.Basic
import Scriptlet.Text.Lines

namespace Scriptlet

/-- The ways in which parts of a rendering stand out. -/
inductive Style where
  | error
  | bold
  | frame
  | plain

/-- The control sequence that begins a style, or ends all of them. -/
def Style.sequence : Style → String
  | .error => "\x1b[1;31m"
  | .bold => "\x1b[1m"
  | .frame => "\x1b[1;34m"
  | .plain => "\x1b[0m"

/-- Writes diagnostics beside the lines of source they point at. The lines of
every file are recorded when the file is first needed, and these are shown from
then on whatever becomes of the file. -/
structure Renderer where
  color : Bool
  recorded : List (String × List String)

namespace Renderer

/-- A renderer that knows no file. -/
def new (color : Bool) : Renderer := ⟨color, []⟩

/-- Records lines for a file, in place of those that were recorded for it. -/
def record (renderer : Renderer) (file : String) (lines : List String) : Renderer :=
  { renderer with recorded := (file, lines) :: renderer.recorded }

/-- Records the text of a file. -/
def addSource (renderer : Renderer) (file : String) (text : List Char) : Renderer :=
  renderer.record file (Text.splitLines text)

/-- Records the lines of a file that none are recorded for. A file that cannot
be read has no lines. -/
def remember {m : Type → Type} [Monad m] (linesOf : String → m (List String))
    (renderer : Renderer) (file : String) : m Renderer :=
  match renderer.recorded.lookup file with
  | some _ => pure renderer
  | none => return renderer.record file (← linesOf file)

/-- A file with recorded lines is not looked at again. -/
theorem remember_known {m : Type → Type} [Monad m] (linesOf : String → m (List String))
    (renderer : Renderer) (file : String) (lines : List String)
    (h : renderer.recorded.lookup file = some lines) :
    renderer.remember linesOf file = pure renderer := by
  simp [remember, h]

/-- The first look at a file settles its lines. -/
theorem remember_fresh {m : Type → Type} [Monad m] (linesOf : String → m (List String))
    (renderer : Renderer) (file : String) (h : renderer.recorded.lookup file = none) :
    renderer.remember linesOf file = do return renderer.record file (← linesOf file) := by
  simp [remember, h]

theorem lookup_record (renderer : Renderer) (file other : String) (lines : List String) :
    (renderer.record file lines).recorded.lookup other =
      if other = file then some lines else renderer.recorded.lookup other := by
  by_cases hSame : other = file
  · simp [record, hSame]
  · have hDifferent : (other == file) = false := by simp [hSame]
    simp [record, List.lookup_cons, hSame, hDifferent]

/-- The recorded line of a file by its number, counted from one. -/
def line? (renderer : Renderer) (file : String) (number : Int) : Option String :=
  if number < 1 then none
  else ((renderer.recorded.lookup file).getD [])[(number - 1).toNat]?

/-- Where styles are shown, begins one. -/
def style (renderer : Renderer) (style : Style) : String :=
  if renderer.color then style.sequence else ""

/-- A text in a style. -/
def styled (renderer : Renderer) (style : Style) (text : String) : String :=
  renderer.style style ++ text ++ renderer.style .plain

/-- A number moved to the right end of four columns. -/
def gutter (number : Int) : String :=
  let digits := toString number
  String.ofList (List.replicate (4 - digits.length) ' ') ++ digits

/-- The frame beside a row without line number. -/
def margin (renderer : Renderer) : String :=
  "  " ++ renderer.styled .frame "   |"

/-- The number of characters to underline. A span of several lines is marked by
its first character. -/
def caretCount (span : Span) : Nat :=
  if span.startLine = span.endLine then (max 1 (span.endCol - span.startCol + 1)).toNat else 1

/-- The row below a line of source, with carets under what is meant. -/
def caretRow (renderer : Renderer) (span : Span) : String :=
  renderer.margin ++ " " ++
    String.ofList (List.replicate (span.startCol - 1).toNat ' ') ++
    renderer.styled .error (String.ofList (List.replicate (caretCount span) '^'))

/-- The row with a line of source. -/
def sourceRow (renderer : Renderer) (number : Int) (line : String) : String :=
  "  " ++ renderer.styled .frame (gutter number ++ " |") ++ " " ++ line

/-- The line that a span begins in and the carets below it, if there is such a
line. -/
def excerpt (renderer : Renderer) (span : Span) : List String :=
  match renderer.line? span.file span.startLine with
  | some line => [renderer.sourceRow span.startLine line, renderer.caretRow span]
  | none => []

/-- The row with the remark of a pointer, if it has one. -/
def remark (renderer : Renderer) (message : String) : List String :=
  if message.isEmpty then []
  else [renderer.margin ++ "   " ++ renderer.styled .error message]

/-- The rows for one pointer: its place, the line of source and the remark. -/
def pointerRows (renderer : Renderer) (pointer : Pointer) : List String :=
  ["  " ++ renderer.styled .frame "-->" ++ " " ++ pointer.span.text, renderer.margin] ++
    renderer.excerpt pointer.span ++ renderer.remark pointer.message

/-- The first row: the code and what is wrong. -/
def headerRow (renderer : Renderer) (diagnostic : Diagnostic) : String :=
  renderer.styled .error ("error[" ++ diagnostic.code ++ "]") ++
    renderer.styled .bold (": " ++ diagnostic.message)

def noteRow (renderer : Renderer) (note : String) : String :=
  "  " ++ renderer.styled .frame "=" ++ " note: " ++ note

/-- All rows of a diagnostic, with the lines of source recorded by now. -/
def rows (renderer : Renderer) (diagnostic : Diagnostic) : List String :=
  renderer.headerRow diagnostic ::
    (diagnostic.pointers.flatMap renderer.pointerRows ++ diagnostic.notes.map renderer.noteRow)

/-- A diagnostic as it is shown, with the lines of source recorded by now. -/
def layout (renderer : Renderer) (diagnostic : Diagnostic) : String :=
  "\n".intercalate (renderer.rows diagnostic)

/-- A diagnostic as it is shown, once the files it points at are recorded. -/
def render {m : Type → Type} [Monad m] (linesOf : String → m (List String))
    (renderer : Renderer) (diagnostic : Diagnostic) : m (String × Renderer) := do
  let renderer ← diagnostic.pointers.foldlM (fun r pointer => r.remember linesOf pointer.span.file)
    renderer
  return (renderer.layout diagnostic, renderer)

end Renderer

end Scriptlet
