import Lexeme.Text.DecimalDigit
import Lexeme.Text.Quoted

/-!
# Command lines

A command line is read by a grammar: the options that a program knows and one kind of
positional argument. Long options may be shortened to a start that only one option has, a
value may be joined to its option, and two hyphens end the options. What fits nowhere is
left over. The grammar only tells what was given; what it means is settled elsewhere.
-/

namespace Lexeme.Command

inductive Key
  | help
  | config
  | encoding
  | format
  | noText
  | debug
  | output
  | source
  deriving DecidableEq

structure OptionRule where
  key : Key
  names : List Text
  takesValue : Bool
  /-- The values that are allowed; none stands for any value. -/
  choices : List Text
  isRequired : Bool

/-- The positional arguments that a grammar takes. -/
inductive Arity
  | one
  | several
  /-- The first argument and all that follow it, options included. -/
  | rest
  deriving DecidableEq

/-- What a program takes on its command line. -/
structure Grammar where
  program : String
  options : List OptionRule
  arity : Arity
  /-- The name of the positional arguments in messages. -/
  positional : String

/-- Why a command line ends the program before it starts. -/
inductive UsageCause
  /-- Help was asked for, which is no error. -/
  | help
  | ambiguous (argument : Text) (names : List Text)
  | missingValue (option : OptionRule)
  | needlessValue (option : OptionRule) (value : Text)
  | invalidChoice (subject : String) (value : Text) (choices : List Text)
  | missing (names : List String)
  | unrecognized (arguments : List Text)

structure UsageError where
  program : String
  cause : UsageCause

/-- Names with a comma and a blank between neighbours. -/
def listed (names : List String) : String :=
  ", ".intercalate names

def OptionRule.title (option : OptionRule) : String :=
  "/".intercalate (option.names.map String.ofList)

/-- The words for a cause; help has none. -/
def UsageCause.message? : UsageCause → Option String
  | help => none
  | ambiguous argument names =>
    some ("ambiguous option: " ++ String.ofList argument ++ " could match " ++
      listed (names.map String.ofList))
  | missingValue option => some ("argument " ++ option.title ++ ": expected one argument")
  | needlessValue option value =>
    some ("argument " ++ option.title ++ ": ignored explicit argument " ++
      String.ofList (Quoted.encode value))
  | invalidChoice subject value choices =>
    some ("argument " ++ subject ++ ": invalid choice: " ++ String.ofList (Quoted.encode value) ++
      " (choose from " ++ listed (choices.map fun choice => String.ofList (Quoted.encode choice)) ++
      ")")
  | missing names => some ("the following arguments are required: " ++ listed names)
  | unrecognized arguments =>
    some ("unrecognized arguments: " ++ " ".intercalate (arguments.map String.ofList))

def UsageError.message? (error : UsageError) : Option String :=
  error.cause.message?.map fun message => error.program ++ ": error: " ++ message

/-- The exit code of a usage error. -/
def UsageError.exitCode (error : UsageError) : Nat :=
  if error.cause.message?.isSome then 2 else 0

/-- An option that is meant by an argument, by which of its names, and the text that is
joined to it: what stands behind an equals sign or behind the letter of a short option. -/
structure OptionUse where
  option : OptionRule
  name : Text
  joined : Option Text

/-- An argument, as far as it can be told without its neighbours. -/
inductive Item
  | argument (text : Text)
  | separator
  | option (text : Text) (use : OptionUse)
  | unknownOption (text : Text)

namespace Item

def text : Item → Text
  | argument text => text
  | separator => ['-', '-']
  | option text _ => text
  | unknownOption text => text

end Item

/-- Whether a text is a negative number: digits after a hyphen, with at most one point among
or before them. A line feed at the end does not count. -/
def isNegativeNumber : Text → Bool
  | '-' :: rest =>
    let body := if rest.getLast? = some '\n' then rest.dropLast else rest
    let whole := body.takeWhile DecimalDigit.isDecimalDigit
    match body.drop whole.length with
    | [] => !whole.isEmpty
    | '.' :: fraction => !fraction.isEmpty && fraction.all DecimalDigit.isDecimalDigit
    | _ => false
  | _ => false

def isLong : Text → Bool
  | '-' :: '-' :: _ => true
  | _ => false

/-- A text up to the first equals sign, and the text behind it. -/
def splitValue? (text : Text) : Option (Text × Text) :=
  if text.contains '=' then
    some (text.takeWhile (· ≠ '='), (text.dropWhile (· ≠ '=')).drop 1)
  else none

namespace Grammar

def named (grammar : Grammar) : List (Text × OptionRule) :=
  grammar.options.flatMap fun option => option.names.map fun name => (name, option)

def option? (grammar : Grammar) (name : Text) : Option OptionRule :=
  grammar.named.lookup name

/-- The options that an argument may mean without being the name of one: a long one by a
start of its name, a short one by a value that is joined to it. -/
def candidates (grammar : Grammar) (argument : Text) : List OptionUse :=
  if isLong argument then
    let parts := splitValue? argument
    let start := (parts.map Prod.fst).getD argument
    grammar.named.filterMap fun entry =>
      if start.isPrefixOf entry.1 then some ⟨entry.2, entry.1, parts.map Prod.snd⟩ else none
  else
    grammar.named.filterMap fun entry =>
      if entry.1 = argument.take 2 then some ⟨entry.2, entry.1, some (argument.drop 2)⟩
      else if argument.isPrefixOf entry.1 then some ⟨entry.2, entry.1, none⟩
      else none

/-- Tells an argument that may be an option from one that cannot. -/
def item (grammar : Grammar) (argument : Text) : Except UsageError Item :=
  if argument.head? ≠ some '-' then .ok (.argument argument)
  else
    match grammar.option? argument with
    | some option => .ok (.option argument ⟨option, argument, none⟩)
    | none =>
      if argument.length = 1 then .ok (.argument argument)
      else
        let joined := (splitValue? argument).bind fun parts =>
          (grammar.option? parts.1).map fun option => OptionUse.mk option parts.1 (some parts.2)
        match joined with
        | some use => .ok (.option argument use)
        | none =>
          match grammar.candidates argument with
          | [use] => .ok (.option argument use)
          | [] =>
            if isNegativeNumber argument ∨ argument.contains ' ' then .ok (.argument argument)
            else .ok (.unknownOption argument)
          | several => .error ⟨grammar.program, .ambiguous argument (several.map OptionUse.name)⟩

/-- Tells the arguments up to two hyphens apart; behind them there are no options. -/
def items (grammar : Grammar) : List Text → Except UsageError (List Item)
  | [] => .ok []
  | argument :: rest =>
    if argument = ['-', '-'] then .ok (.separator :: rest.map .argument)
    else do
      let item ← grammar.item argument
      let items ← grammar.items rest
      pure (item :: items)

end Grammar

/-- The options that a single argument gives: first those without a value, then perhaps one
with a value, which may still have to come. -/
structure Cluster where
  flags : List OptionRule
  valued : Option (OptionRule × Option Text)

namespace Grammar

/-- Settles a short option without a value to which a text is joined: its letters are further
short options, and the first of them that takes a value takes what is left of the text. From
a letter that names no option on, the text is a value that the option before it has no use
for. -/
def cluster (grammar : Grammar) (flag : OptionRule) : Text → Except UsageError Cluster
  | [] => .ok ⟨[flag], none⟩
  | letter :: rest =>
    match grammar.option? ['-', letter] with
    | none => .error ⟨grammar.program, .needlessValue flag (letter :: rest)⟩
    | some option =>
      if option.takesValue then
        .ok ⟨[flag], some (option, if rest.isEmpty then none else some rest)⟩
      else do
        let last ← grammar.cluster option rest
        pure { last with flags := flag :: last.flags }

/-- Settles what an argument that means an option gives. For a short option without a value
an equals sign makes no difference: what stands behind it are letters. -/
def unfold (grammar : Grammar) (use : OptionUse) : Except UsageError Cluster :=
  if use.option.takesValue then .ok ⟨[], some (use.option, use.joined)⟩
  else
    match use.joined with
    | none => .ok ⟨[use.option], none⟩
    | some joined =>
      if isLong use.name ∨ joined.isEmpty then
        .error ⟨grammar.program, .needlessValue use.option joined⟩
      else grammar.cluster use.option joined

end Grammar

inductive Setting
  | flag
  | value (text : Text)
  /-- A value of two hyphens, which are taken away, so that nothing is left. -/
  | blank
  deriving DecidableEq

structure Parsed where
  settings : List (Key × Setting)
  positionals : List Text
  unrecognized : List Text

namespace Parsed

def empty : Parsed := ⟨[], [], []⟩

/-- The last thing that was given for an option. -/
def setting? (parsed : Parsed) (key : Key) : Option Setting :=
  parsed.settings.reverse.lookup key

end Parsed

/-- How far the positional arguments have come. -/
inductive Phase
  | before
  /-- Several arguments are being taken. -/
  | taking
  /-- The last argument has just been taken; two hyphens may follow. -/
  | closing
  | after
  deriving DecidableEq

namespace Grammar

/-- What is given for an option by a value: it must be one of the choices, unless it is
blank. -/
def settle (grammar : Grammar) (option : OptionRule) (value : Text) :
    Except UsageError (Key × Setting) :=
  if value = ['-', '-'] then .ok (option.key, .blank)
  else if option.choices = [] ∨ option.choices.contains value then
    .ok (option.key, .value value)
  else .error ⟨grammar.program, .invalidChoice option.title value option.choices⟩

/-- What is given for an option without a value. Help ends the program. -/
def raise (grammar : Grammar) (option : OptionRule) : Except UsageError (Key × Setting) :=
  if option.key = .help then .error ⟨grammar.program, .help⟩ else .ok (option.key, .flag)

def take (grammar : Grammar) : Phase → List Item → Except UsageError Parsed
  | _, [] => .ok .empty
  | phase, .argument text :: rest =>
    match phase, grammar.arity with
    | .before, .one => do
      let parsed ← grammar.take .closing rest
      pure { parsed with positionals := text :: parsed.positionals }
    | .before, .several | .taking, _ => do
      let parsed ← grammar.take .taking rest
      pure { parsed with positionals := text :: parsed.positionals }
    | .before, .rest => .ok { Parsed.empty with positionals := text :: rest.map Item.text }
    | .closing, _ | .after, _ => do
      let parsed ← grammar.take .after rest
      pure { parsed with unrecognized := text :: parsed.unrecognized }
  | phase, .separator :: rest =>
    match phase, grammar.arity with
    | .before, .rest =>
      if rest.isEmpty then .ok { Parsed.empty with unrecognized := [['-', '-']] }
      else .ok { Parsed.empty with positionals := ['-', '-'] :: rest.map Item.text }
    | .before, _ =>
      if rest.isEmpty then .ok { Parsed.empty with unrecognized := [['-', '-']] }
      else grammar.take .before rest
    | .taking, _ => grammar.take .taking rest
    | .closing, _ => grammar.take .after rest
    | .after, _ => do
      let parsed ← grammar.take .after rest
      pure { parsed with unrecognized := ['-', '-'] :: parsed.unrecognized }
  | phase, .unknownOption text :: rest => do
    let phase := if phase = .before then .before else .after
    let parsed ← grammar.take phase rest
    pure { parsed with unrecognized := text :: parsed.unrecognized }
  | phase, .option _ use :: rest => do
    let phase := if phase = .before then .before else .after
    let cluster ← grammar.unfold use
    match cluster.valued with
    | none => do
      let raised ← cluster.flags.mapM grammar.raise
      let parsed ← grammar.take phase rest
      pure { parsed with settings := raised ++ parsed.settings }
    | some (option, some value) => do
      let raised ← cluster.flags.mapM grammar.raise
      let setting ← grammar.settle option value
      let parsed ← grammar.take phase rest
      pure { parsed with settings := raised ++ setting :: parsed.settings }
    | some (option, none) =>
      match rest with
      | .argument value :: rest => do
        let raised ← cluster.flags.mapM grammar.raise
        let setting ← grammar.settle option value
        let parsed ← grammar.take phase rest
        pure { parsed with settings := raised ++ setting :: parsed.settings }
      | _ => .error ⟨grammar.program, .missingValue option⟩

/-- What a command line must give and does not, in the order of the messages. -/
def missing (grammar : Grammar) (parsed : Parsed) : List String :=
  let positional := if parsed.positionals.isEmpty then [grammar.positional] else []
  let options := grammar.options.filter fun option =>
    option.isRequired && (parsed.setting? option.key).isNone
  positional ++ options.map OptionRule.title

def parse (grammar : Grammar) (arguments : List Text) : Except UsageError Parsed := do
  let items ← grammar.items arguments
  let parsed ← grammar.take .before items
  match grammar.missing parsed with
  | [] => pure parsed
  | names => .error ⟨grammar.program, .missing names⟩

end Grammar

end Lexeme.Command
