import Lexeme.Editor.Workspace
import Lexeme.Main
import Lexeme.Session
import Lexeme.Proofs.Except
import Lexeme.Proofs.Packed.Record
import Lexeme.Proofs.Search
import Lexeme.Proofs.Locate.Lookup
import Lexeme.Proofs.Encoding.Ascii
import Lexeme.Proofs.Word.Factorisation
import Lexeme.Proofs.Word.Scan
import Lexeme.Proofs.Word.Order
import Lexeme.Proofs.Word.Recovery
import Lexeme.Proofs.Command.Line
import Lexeme.Proofs.Directory
import Lexeme.Proofs.Command.Flags
import Lexeme.Proofs.Command.Lookalike
import Lexeme.Proofs.Command.Settings
import Lexeme.Proofs.Command.Rows
import Lexeme.Proofs.Command.Action
import Lexeme.Proofs.Command.Perform
import Lexeme.Proofs.Command.Run
import Lexeme.Proofs.Command.RoundTrip
import Lexeme.Proofs.Packed.File
import Lexeme.Proofs.Encoding.Utf8
import Lexeme.Proofs.Encoding.Cut
import Lexeme.Proofs.Word.Whole
import Lexeme.Proofs.Editor.Position
import Lexeme.Proofs.Editor.Row
import Lexeme.Proofs.Editor.Span
import Lexeme.Proofs.Editor.SemanticData
import Lexeme.Proofs.Locate.Handle
import Lexeme.Proofs.Locate.Order
import Lexeme.Proofs.Packed.Correspondence
import Lexeme.Proofs.Locate.Cursor
import Lexeme.Proofs.Session.History
import Lexeme.Proofs.Literal
import Lexeme.Proofs.Encoding.Origin
import Lexeme.Proofs.Word.Classification
import Lexeme.Proofs.Command.Effects
import Lexeme.Proofs.Locate.Failure
import Lexeme.Proofs.Locate.Linear
import Lexeme.Proofs.Locate.Unordered
import Lexeme.Proofs.Command.Failures
import Lexeme.Proofs.Command.ExitCode
import Lexeme.Proofs.Command.Debugging
import Lexeme.Proofs.Command.Diagnostics
import Lexeme.Proofs.Command.Shown
import Lexeme.Proofs.Editor.Hover
import Lexeme.Proofs.Word.Composition
import Lexeme.Proofs.Text.Lines
import Lexeme.Proofs.Text.Numeral
import Lexeme.Proofs.Text.SelfDelimiting
import Lexeme.Proofs.Text.Quoted
import Lexeme.Proofs.Report
import Lexeme.Proofs.Command.Given
import Lexeme.Proofs.Toml
import Lexeme.Proofs.Command.Precedence
import Lexeme.Proofs.Dump
import Lexeme.Proofs.Probe
import Lexeme.Proofs.Word.Stream
import Lexeme.Proofs.Command.Printed
