import Lexeme.Command.Action
import Lexeme.Command.Options
import Lexeme.Dump
import Lexeme.Word

/-!
# Running commands

A run reads files, and ends with an exit code, what it wrote to the two output streams,
and the directory as it left it. A report is written as a whole after everything else has
succeeded, and so is a token file. A run fails with code 1 if the data or a file is at
fault, and with code 2 if the settings are. Some conditions end it without an exit code.
-/

namespace Lexeme.Command

/-- A condition that ends a run without an exit code. -/
inductive Interruption
  | noInput
  | pathHoldsNul
  | settings (problem : SettingsProblem)
  | refusal (refusal : Refusal)
  | name (problem : NameProblem)
  | label (problem : LabelProblem)
  | numberTooLong

/-- The words for an interruption; there are none for a missing input. -/
def Interruption.message : Interruption → String
  | noInput => ""
  | pathHoldsNul => OpenFailure.nulMessage
  | settings cause => cause.message
  | refusal cause => cause.message
  | name cause => cause.message
  | label cause => cause.message
  | numberTooLong => Numeral.tooLongMessage ""

inductive Ending
  | exit (code : Nat)
  | interrupted (interruption : Interruption)

structure Outcome where
  ending : Ending
  out : Text
  err : Text
  directory : Directory

def line (text : String) : Text :=
  text.toList ++ ['\n']

namespace Options

/-- The text of a report, as a table if no layout is set. What a command reports stands in a
source or in a token file, or at the offset zero, so all of it can be written. -/
def report (options : Options) (rows : List Report.Row) : Text :=
  Report.render (options.format.getD .table) options.showText rows

/-- Dumps tokens with their texts if that is asked for, and gives the handle behind that. -/
def dumpTexts (options : Options) (tokens : List Token) (source : Source) : Action Source :=
  if options.debug then do
    let dumped := Dump.withTexts tokens source options.encoding
    .dump dumped.1
    pure dumped.2
  else pure source

/-- What is left to do for a scanned source: to write the token file, or to report. -/
def finishScan (options : Options) (data : Bytes) (tokens : List Token) : Action Unit :=
  match options.output with
  | some output => do
    let contents ← .settle (TokenFile.encode tokens)
    .write output contents
    .note (line ("Wrote " ++ Numeral.integerString tokens.length ++ " tokens to " ++
      String.ofList output.text))
  | none => do
    let items ← .settle ((Source.ofBytes data).texts options.encoding tokens).1.complete
    .print (options.report (items.map fun item => ⟨item.1, some item.2⟩))

/-- The bytes of the source that is to be scanned, and its tokens. -/
def findSource (options : Options) (directory : Directory) :
    Except CommandFailure (Bytes × List Token) := do
  let input ← options.input.elim (.error .noInput) .ok
  let data ← (directory.read input).mapError .file
  let tokens ← (tokenize data options.encoding).mapError .failure
  pure (data, tokens)

def scanSource (options : Options) : Action Unit := do
  let found ← .consult options.findSource
  let _ ← options.dumpTexts found.2 (.ofBytes found.1)
  options.finishScan found.1 found.2

/-- The rows of a report on tokens that are looked up by their records, one after the
other. -/
def lookUpRows (options : Options) (records : List Bytes) (source : Source) :
    List Token → Except Failure (List Report.Row)
  | [] => .ok []
  | token :: tokens =>
    if options.showText then
      match source.packedText token records options.encoding with
      | (.error failure, _) => .error failure
      | (.ok text, after) =>
        (lookUpRows options records after tokens).map (⟨token, some text⟩ :: ·)
    else (lookUpRows options records source tokens).map (⟨token, none⟩ :: ·)

/-- The records of the token file that is to be shown, their tokens, and the bytes of the
source. -/
def findTokens (options : Options) (directory : Directory) :
    Except CommandFailure (List Bytes × List Token × Bytes) := do
  let input ← options.input.elim (.error .noInput) .ok
  let source ← options.source.elim (.error .noInput) .ok
  let data ← (directory.read input).mapError .file
  let records ← (TokenFile.records data).mapError fun fault => .failure (.fault fault)
  let tokens ← (records.mapM Token.unpack).mapError fun fault => .failure (.fault fault)
  let contents ← (directory.read source).mapError .file
  pure (records, tokens, contents)

def finishShow (options : Options) (records : List Bytes) (tokens : List Token)
    (source : Source) : Action Unit := do
  let rows ← .settle (options.lookUpRows records source tokens)
  .print (options.report rows)

def showTokens (options : Options) : Action Unit := do
  let found ← .consult options.findTokens
  let source ← options.dumpTexts found.2.1 (.ofBytes found.2.2)
  options.finishShow found.1 found.2.1 source

/-- Dumps the words of the command line, which are classified as if each stood at the offset
zero. -/
def dumpWords (options : Options) : Action Unit :=
  if options.debug then .dump (Dump.bare (options.words.map (Token.ofWord 0))) else pure ()

def classifyWords (options : Options) : Action Unit := do
  options.dumpWords
  .print (options.report (options.words.map fun word => ⟨Token.ofWord 0 word, some word⟩))

def perform (options : Options) : Action Unit :=
  match options.command with
  | .scan => options.scanSource
  | .show => options.showTokens
  | .classify => options.classifyWords

/-- How a failed command ends, and what it says about it. -/
def conclude (options : Options) : CommandFailure → Ending × Text
  | .noInput => (.interrupted .noInput, [])
  | .failure (.fault fault) => (.exit 1, line (fault.diagnostic.render options.fileName))
  | .failure (.refusal refusal) => (.interrupted (.refusal refusal), [])
  | .failure (.name problem) => (.interrupted (.name problem), [])
  | .failure (.label problem) => (.interrupted (.label problem), [])
  | .failure .numberTooLong => (.interrupted .numberTooLong, [])
  | .file .holdsNul => (.interrupted .pathHoldsNul, [])
  | .file (.problem problem path) => (.exit 1, line ("error: " ++ problem.message path))

def run (options : Options) (directory : Directory) : Outcome :=
  let work := options.perform directory
  match work.result with
  | .ok _ => ⟨.exit 0, work.out, work.err, work.directory⟩
  | .error failure =>
    let (ending, message) := options.conclude failure
    ⟨ending, work.out, work.err ++ message, work.directory⟩

end Options

def Arguments.run (arguments : Arguments) (directory : Directory) : Outcome :=
  match Options.resolve directory arguments with
  | .ok options => options.run directory
  | .error problem =>
    if problem.isReported then ⟨.exit 2, [], line ("error: " ++ problem.message), directory⟩
    else ⟨.interrupted (.settings problem), [], [], directory⟩

def run (directory : Directory) (arguments : List Text) : Except UsageError Outcome := do
  let parsed ← Arguments.parse arguments
  pure (parsed.run directory)

/-- Runs the program with one command line after the other in the same directory. -/
def runAll (directory : Directory) :
    List (List Text) → List (Except UsageError Outcome) × Directory
  | [] => ([], directory)
  | arguments :: rest =>
    match run directory arguments with
    | .error error =>
      let (outcomes, last) := runAll directory rest
      (.error error :: outcomes, last)
    | .ok outcome =>
      let (outcomes, last) := runAll outcome.directory rest
      (.ok outcome :: outcomes, last)

end Lexeme.Command
