import Scriptlet.Description
import Scriptlet.Files.Tree
import Scriptlet.Main
import Scriptlet.Proofs.Grammar.Token
import Scriptlet.Proofs.Number.Digits
import Scriptlet.Proofs.Number.Hexadecimal
import Scriptlet.Proofs.Number.Rounding
import Scriptlet.Proofs.Number.Shortest
import Scriptlet.Proofs.Text.Clean
import Scriptlet.Proofs.Text.Escape
import Scriptlet.Proofs.Text.Quoted
import Scriptlet.Proofs.Syntax.Dump
import Scriptlet.Proofs.Syntax.Recovery
import Scriptlet.Proofs.DumpFaithful
import Scriptlet.Proofs.Parsing.LongestMatch
import Scriptlet.Proofs.Grammar.Terminal
import Scriptlet.Proofs.Grammar.Literal
import Scriptlet.Proofs.Grammar.Operand
import Scriptlet.Proofs.Grammar.Expression
import Scriptlet.Proofs.Grammar.Declaration
import Scriptlet.Proofs.Grammar.Statement
import Scriptlet.Proofs.Grammar.Layout
import Scriptlet.Proofs.Grammar.Ending
import Scriptlet.Proofs.Program
import Scriptlet.Proofs.Entry
import Scriptlet.Proofs.EntryPoints
import Scriptlet.Proofs.Concatenation
import Scriptlet.Proofs.RoundTrip
import Scriptlet.Proofs.Soundness
import Scriptlet.Proofs.Parsing.Halting
import Scriptlet.Proofs.Parsing.Link
import Scriptlet.Proofs.Parsing.Alignment
import Scriptlet.Proofs.Grammar.Recognition
import Scriptlet.Proofs.Grammar.Alignment
import Scriptlet.Proofs.Driver
import Scriptlet.Proofs.Backtracking.Grammar
import Scriptlet.Proofs.Backtracking.Terminal
import Scriptlet.Proofs.Backtracking.Equivalence
import Scriptlet.Proofs.Termination
import Scriptlet.Proofs.Completion
import Scriptlet.Proofs.OpenGroups
import Scriptlet.Proofs.ErrorReports
import Scriptlet.Proofs.Respacing
import Scriptlet.Proofs.Parsing.Inheritance
import Scriptlet.Proofs.Descriptions
import Scriptlet.Proofs.CursorInvariant
import Scriptlet.Proofs.LateBinding
import Scriptlet.Proofs.Parsing.Depth
import Scriptlet.Proofs.Grammar.Depth
import Scriptlet.Proofs.Nesting
import Scriptlet.Proofs.Text.Lines
import Scriptlet.Proofs.Diagnostic.Renderer
import Scriptlet.Proofs.Diagnostic.Colors
import Scriptlet.Proofs.ErrorRow
import Scriptlet.Proofs.CaretColumn
import Scriptlet.Proofs.Files.Path
import Scriptlet.Proofs.ProjectCheck
import Scriptlet.Proofs.CheckOutcome
import Scriptlet.Proofs.Sequencing
import Scriptlet.Proofs.RecursiveLoops
import Scriptlet.Proofs.Alternatives
import Scriptlet.Proofs.OffsetInvariance
import Scriptlet.Proofs.ErrorPlace
import Scriptlet.Proofs.LongestOperator
import Scriptlet.Proofs.Words
import Scriptlet.Proofs.DeclaredNames
import Scriptlet.Proofs.LinePlaces
import Scriptlet.Proofs.ColorErasure
import Scriptlet.Proofs.Files.Tree
import Scriptlet.Proofs.RendererSession
import Scriptlet.Proofs.NearestSettings
import Scriptlet.Proofs.DigitRuns
