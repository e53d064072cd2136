import Lexeme.Command.Grammar

/-!
# The program's command line

The program has three commands: `scan` tokenizes a source file, `show` prints the tokens of
a token file with their texts, and `classify` classifies words. The commands share options
for the configuration file, the encoding, the layout of reports and debugging.
-/

namespace Lexeme.Command

inductive Name
  | scan
  | show
  | classify
  deriving DecidableEq

namespace Name

def all : List Name := [scan, .show, classify]

def word : Name → String
  | scan => "scan"
  | .show => "show"
  | classify => "classify"

def ofWord? (word : Text) : Option Name :=
  all.find? (·.word.toList == word)

end Name

def OptionRule.flag (key : Key) (names : List String) : OptionRule :=
  ⟨key, names.map String.toList, false, [], false⟩

def OptionRule.valued (key : Key) (names : List String) : OptionRule :=
  ⟨key, names.map String.toList, true, [], false⟩

def helpOption : OptionRule := .flag .help ["-h", "--help"]

def sharedOptions : List OptionRule := [
    helpOption,
    .valued .config ["--config"],
    .valued .encoding ["--encoding"],
    { OptionRule.valued .format ["--format"] with choices := ["table".toList, "json".toList] },
    .flag .noText ["--no-text"],
    .flag .debug ["--debug"]
  ]

/-- The word for the program in messages. -/
def programWord : String := "packtok"

def programGrammar : Grammar :=
  ⟨programWord, [helpOption], .rest, "command"⟩

namespace Name

def grammar (command : Name) : Grammar :=
  let program := programWord ++ " " ++ command.word
  match command with
  | scan => ⟨program, sharedOptions ++ [.valued .output ["-o", "--output"]], .one, "input"⟩
  | .show =>
    ⟨program, sharedOptions ++ [{ OptionRule.valued .source ["-s", "--source"] with
      isRequired := true }], .one, "input"⟩
  | classify => ⟨program, sharedOptions, .several, "WORD"⟩

end Name

/-- What a command line asks for. -/
structure Arguments where
  command : Name
  given : Parsed

/-- Reads the program's command line. What a command cannot place is reported by the
program, together with what stood before the command. -/
def Arguments.parse (arguments : List Text) : Except UsageError Arguments := do
  let outer ← programGrammar.parse arguments
  let word := outer.positionals.headD []
  match Name.ofWord? word with
  | none =>
    .error ⟨programWord,
      .invalidChoice programGrammar.positional word (Name.all.map fun name => name.word.toList)⟩
  | some command =>
    let given ← command.grammar.parse (outer.positionals.drop 1)
    match outer.unrecognized ++ given.unrecognized with
    | [] => pure ⟨command, given⟩
    | unrecognized => .error ⟨programWord, .unrecognized unrecognized⟩

namespace Arguments

/-- The first positional argument of a command that takes a file. -/
def input? (arguments : Arguments) : Option Text :=
  match arguments.command with
  | .classify => none
  | .scan | .show => arguments.given.positionals.head?

def words (arguments : Arguments) : List Text :=
  match arguments.command with
  | .classify => arguments.given.positionals
  | .scan | .show => []

/-- The value of an option, if it was given. A blank value is none. -/
def value? (arguments : Arguments) (key : Key) : Option Text :=
  match arguments.given.setting? key with
  | some (.value text) => some text
  | some .flag | some .blank | none => none

def isBlank (arguments : Arguments) (key : Key) : Bool :=
  arguments.given.setting? key == some .blank

def isRaised (arguments : Arguments) (key : Key) : Bool :=
  (arguments.given.setting? key).isSome

end Arguments

end Lexeme.Command
