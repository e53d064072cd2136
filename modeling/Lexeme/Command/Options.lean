import Lexeme.Command.Arguments
import Lexeme.Directory
import Lexeme.Encoding.Name
import Lexeme.Report
import Lexeme.Toml.Document

/-!
# Settings

What a command does is settled by its command line and a configuration file: an option
goes before the file, and the file before the defaults. The configuration file is the one
that the command line names, or else the one beside the source file; a missing file is as
good as an empty one.
-/

namespace Lexeme.Command

structure Options where
  command : Name
  input : Option Path
  output : Option Path
  source : Option Path
  words : List Text
  encoding : Text
  /-- The layout of reports, unless the command line blanks it. -/
  format : Option Report.Format
  showText : Bool
  debug : Bool

inductive SettingsProblem
  | configMalformed
  | encodingBlank
  | encoding (objection : EncodingObjection)
  | format (value : Datum)
  | configNotText (data : Bytes) (malformed : Malformed)
  | configNumberTooLong (digits : Nat)
  | formatTooLong
  | configPath (problem : FileProblem) (path : Path)

namespace SettingsProblem

/-- Whether a problem is reported to the user. The others end the program. -/
def isReported : SettingsProblem → Bool
  | configMalformed | encoding (.unknown _) | encoding (.notAsciiCompatible _) | format _ => true
  | encodingBlank | encoding .holdsNul | configNotText .. | configNumberTooLong _
    | formatTooLong | configPath .. => false

/-- The words for a problem. What is wrong with a configuration file that cannot be read is
not told in detail. -/
def message : SettingsProblem → String
  | configMalformed => "<toml>"
  | encodingBlank => "lookup() argument must be str, not list"
  | encoding objection => objection.message
  | format value =>
    "invalid output format in config: " ++ value.literalString ++
      " (expected one of table, json)"
  | configNotText data malformed => malformed.message data
  | configNumberTooLong digits =>
    Numeral.tooLongMessage (": value has " ++ Numeral.integerString digits ++ " digits")
  | formatTooLong => Numeral.tooLongMessage ""
  | configPath problem path => problem.message path

end SettingsProblem

def configName : Text := "packtok.toml".toList

/-- Where the configuration file is looked for: at the path that the command line names, or
beside the source file, or in the current directory. -/
def configPath (named anchor : Option Path) : Path :=
  named.getD ((anchor.getD Path.here).parent.child configName)

/-- The table of a configuration file; a path that leads to no file gives an empty one. -/
def loadConfig (directory : Directory) (path : Path) : Except SettingsProblem Toml.Table :=
  match directory.isFile path with
  | .error problem => .error (.configPath problem path)
  | .ok false => .ok []
  | .ok true =>
    match directory.read path with
    | .error _ => .ok []
    | .ok data =>
      match Utf8.decode data with
      | .error malformed => .error (.configNotText data malformed)
      | .ok text =>
        match Toml.parse text with
        | .ok table => .ok table
        | .error .malformed => .error .configMalformed
        | .error (.numberTooLong digits) => .error (.configNumberTooLong digits)

def configText? (config : Toml.Table) (key : String) : Option Text :=
  match config.lookup key.toList with
  | some (.text text) => some text
  | _ => none

/-- The table of a configuration that concerns output; it is empty if it is no table. -/
def outputConfig (config : Toml.Table) : Toml.Table :=
  match config.lookup "output".toList with
  | some (.table entries) => entries
  | _ => []

/-- The layout that a configuration asks for. Any value but the name of a layout is an
error, also if an option overrides it. -/
def configFormat (output : Toml.Table) : Except SettingsProblem Report.Format :=
  match output.lookup "format".toList with
  | none => .ok .table
  | some value =>
    let named := match value with
      | .text name => Report.Format.ofName? name
      | _ => none
    match named with
    | some format => .ok format
    | none => .error (if value.holdsLongInteger then .formatTooLong else .format value)

def configShowText (output : Toml.Table) : Bool :=
  match output.lookup "show_text".toList with
  | some (.bool showText) => showText
  | _ => true

namespace Options

/-- The encoding that arguments and a configuration settle on. A blank name is no name. -/
def settleEncoding (arguments : Arguments) (config : Toml.Table) :
    Except SettingsProblem Text :=
  if arguments.isBlank .encoding then .error .encodingBlank
  else
    let configured := (configText? config "encoding").getD "utf-8".toList
    let name := (arguments.value? .encoding).getD configured
    (Encoding.checkName name).mapError .encoding

/-- The layout that arguments and a configuration settle on. A blank value in the arguments
overrides the configuration without naming a layout. -/
def settleFormat (arguments : Arguments) (config : Toml.Table) :
    Except SettingsProblem (Option Report.Format) := do
  let configured ← configFormat (outputConfig config)
  if arguments.isBlank .format then pure none
  else
    let named := (arguments.value? .format).bind Report.Format.ofName?
    pure (some (named.getD configured))

def merge (arguments : Arguments) (config : Toml.Table) : Except SettingsProblem Options := do
  let encoding ← settleEncoding arguments config
  let format ← settleFormat arguments config
  pure {
    command := arguments.command
    input := arguments.input?.bind Path.ofText?
    output := (arguments.value? .output).bind Path.ofText?
    source := (arguments.value? .source).bind Path.ofText?
    words := arguments.words
    encoding
    format
    showText := !arguments.isRaised .noText && configShowText (outputConfig config)
    debug := arguments.isRaised .debug }

def configPathOf (arguments : Arguments) : Path :=
  let input := arguments.input?.bind Path.ofText?
  let source := (arguments.value? .source).bind Path.ofText?
  configPath ((arguments.value? .config).bind Path.ofText?) (source <|> input)

def resolve (directory : Directory) (arguments : Arguments) : Except SettingsProblem Options := do
  let config ← loadConfig directory (configPathOf arguments)
  merge arguments config

def fileName (options : Options) : String :=
  match options.source <|> options.input with
  | some path => String.ofList path.text
  | none => "<args>"

end Options

end Lexeme.Command
