import Lexeme.Directory
import Lexeme.Editor.Address
import Lexeme.Editor.Hover
import Lexeme.Editor.Position
import Lexeme.Editor.SemanticData

/-!
# Open documents

An editor sends whole documents by name and then asks for their semantic tokens and for
what to show at a position. How the escapes in a name are written makes no difference. A
document that has not been sent would be the file at its address, but no files are in sight.
-/

namespace Lexeme.Editor

/-- The documents that are open, each with its name, in which the escapes are resolved. -/
abbrev Workspace := List (Text × Text)

/-- A request of the editor. The position of a request is yet to be checked. -/
inductive Request
  | put (name document : Text)
  | semanticTokens (name : Text)
  | hover (name : Text) (line character : Datum)

inductive Reply
  | stored
  | semanticTokens (data : List Int)
  | hover (hover : Option (Hover Position))

inductive RequestFailure
  | position (problem : PositionProblem)
  | unreadable (problem : FileProblem) (path : Path)
  /-- The path of the document's file holds the zero character. -/
  | pathHoldsNul
  | failure (failure : Failure)

def RequestFailure.ofHover : HoverFailure PositionProblem → RequestFailure
  | .failure reason => .failure reason
  | .position problem => .position problem

/-- Why a document cannot be had that has not been sent. -/
def RequestFailure.ofAbsent (name : Text) : RequestFailure :=
  let path := Address.path name
  match Directory.empty.openFile path with
  | .error .holdsNul => .pathHoldsNul
  | .error (.problem problem path) => .unreadable problem path
  | .ok _ => .unreadable .missing path

/-- Positions as they are checked when they come from the editor. -/
def Position.library : PositionLibrary Position PositionProblem where
  make line character := Position.ofData (.int line) (.int character)
  line position := position.line
  character position := position.character

namespace Workspace

/-- Opens a document under a name, in place of the one that had the name before. -/
def put (workspace : Workspace) (name document : Text) : Workspace :=
  let plain := Address.unescape name
  (plain, document) :: workspace.filter (·.1 != plain)

def document (workspace : Workspace) (name : Text) : Except RequestFailure Text :=
  match workspace.lookup (Address.unescape name) with
  | some document => .ok document
  | none => .error (.ofAbsent name)

def semanticTokens (workspace : Workspace) (name : Text) : Except RequestFailure (List Int) := do
  let document ← workspace.document name
  (semanticData document).mapError .failure

/-- What is shown for a position of the document with a name. The position is checked
before the document is looked up. -/
def hover (workspace : Workspace) (name : Text) (line character : Datum) :
    Except RequestFailure (Option (Hover Position)) := do
  let position ← (Position.ofData line character).mapError .position
  let document ← workspace.document name
  (Editor.hover Position.library document position.line position.character).mapError .ofHover

def answer (workspace : Workspace) : Request → Except RequestFailure Reply × Workspace
  | .put name document => (.ok .stored, workspace.put name document)
  | .semanticTokens name => ((workspace.semanticTokens name).map .semanticTokens, workspace)
  | .hover name line character =>
    ((workspace.hover name line character).map .hover, workspace)

def answerAll (workspace : Workspace) : List Request → List (Except RequestFailure Reply)
  | [] => []
  | request :: requests =>
    let (reply, after) := workspace.answer request
    reply :: answerAll after requests

end Workspace

end Lexeme.Editor
