import Lexeme.Command.Run

/-!
# The program

Looks up the files that the command line leads to, runs the command on them, and carries
out what the command has done.
-/

namespace Lexeme.Command.Program

/-- Adds to a directory what is found at a path. Nothing is added if nothing is there. -/
def look (directory : Directory) (path : Path) : IO Directory := do
  let location := Location.ofPath path
  try
    let contents ← IO.FS.readBinFile (String.ofList path.text)
    pure (directory.put location (.file contents.toList))
  catch
    | .inappropriateType .. | .illegalOperation .. => pure (directory.put location .folder)
    | _ => pure directory

/-- What is found along the paths that a run may open. -/
def survey (paths : List Path) : IO Directory :=
  (paths.flatMap Path.stages).foldlM look .empty

def pathsOf (arguments : Arguments) : List Path :=
  let named := [arguments.input?, arguments.value? .source, arguments.value? .output]
  Options.configPathOf arguments :: named.filterMap fun text? => text?.bind Path.ofText?

/-- Writes the file at a path if a run has changed it. -/
def store (before after : Directory) (path : Path) : IO Unit := do
  match after.entry? (.ofPath path), before.entry? (.ofPath path) with
  | some (.file contents), some (.file old) =>
    unless contents = old do
      IO.FS.writeBinFile (String.ofList path.text) ⟨contents.toArray⟩
  | some (.file contents), none =>
    IO.FS.writeBinFile (String.ofList path.text) ⟨contents.toArray⟩
  | _, _ => pure ()

/-- Carries out what a run has done and gives its exit code. -/
def finish (before : Directory) (paths : List Path) (outcome : Outcome) : IO UInt32 := do
  paths.forM (store before outcome.directory)
  IO.print (String.ofList outcome.out)
  IO.eprint (String.ofList outcome.err)
  match outcome.ending with
  | .exit code => pure (UInt32.ofNat code)
  | .interrupted interruption => do
    IO.eprintln interruption.message
    pure 1

def usage : String :=
  let command (name : Name) : String :=
    name.grammar.program ++ " " ++ name.grammar.positional ++ "  " ++
      listed (name.grammar.options.map OptionRule.title)
  "\n".intercalate (Name.all.map command)

def run (arguments : List Text) : IO UInt32 := do
  match Arguments.parse arguments with
  | .error error => do
    match error.message? with
    | some message => IO.eprintln message
    | none => IO.println usage
    pure (UInt32.ofNat error.exitCode)
  | .ok parsed => do
    let paths := pathsOf parsed
    let before ← survey paths
    finish before paths (parsed.run before)

end Lexeme.Command.Program

def main (arguments : List String) : IO UInt32 :=
  Lexeme.Command.Program.run (arguments.map String.toList)
