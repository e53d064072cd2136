import Lexeme.Proofs.Command.Line

/-!
# Flags

The commands `scan` and `show` share the options for the configuration file, the encoding,
the layout and the texts of reports. Here are the command lines that consist of the paths a
command needs and of such options behind them, in any number and any order, and what reading
such a command line gives.
-/

namespace Lexeme.Command

/-- An option with a value that `scan` and `show` share. -/
inductive Preference
  | config
  | encoding
  | format

namespace Preference

def word : Preference → Text
  | config => "--config".toList
  | encoding => "--encoding".toList
  | format => "--format".toList

/-- The option among those that all commands take. -/
def rule : Preference → OptionRule
  | config => .valued .config ["--config"]
  | encoding => .valued .encoding ["--encoding"]
  | format =>
    { OptionRule.valued .format ["--format"] with choices := ["table".toList, "json".toList] }

end Preference

/-- A choice that can be made alike for `scan` and for `show`. The value of an option is an
argument of its own or is joined to the option by an equals sign. -/
inductive Flag
  | noText
  | apart (preference : Preference) (value : Text)
  | joined (preference : Preference) (value : Text)

namespace Flag

/-- The arguments that make a choice on a command line. -/
def arguments : Flag → List Text
  | noText => ["--no-text".toList]
  | apart preference value => [preference.word, value]
  | joined preference value => [preference.word ++ '=' :: value]

def setting : Flag → Key × Setting
  | noText => (.noText, .flag)
  | apart preference value | joined preference value => (preference.rule.key, .ofValue value)

/-- Whether a grammar accepts a choice. A value of its own must not look like an option. -/
def IsAccepted (grammar : Grammar) : Flag → Prop
  | noText => True
  | apart preference value =>
    (value ≠ ['-', '-'] ∧ grammar.item value = .ok (.argument value)) ∧
      preference.rule.Accepts value
  | joined preference value => preference.rule.Accepts value

variable {command : Name} {phase : Phase} {tail : List Text} {parsed : Parsed}

theorem readFrom_arguments (started : phase ≠ .before) (flag : Flag) :
    command.grammar.readFrom phase (flag.arguments ++ tail) = .ok parsed ↔
      flag.IsAccepted command.grammar ∧
        ∃ rest, command.grammar.readFrom .after tail = .ok rest ∧
          parsed = rest.withSettings [flag.setting] := by
  cases flag with
  | noText =>
      have told : command.grammar.item "--no-text".toList =
          .ok (.option "--no-text".toList
            ⟨.flag .noText ["--no-text"], "--no-text".toList, none⟩) := by
        cases command <;> rfl
      rw [IsAccepted, true_and, ← Phase.behindOption_of_started started]
      exact Grammar.readFrom_flag rfl (by decide) (by decide) told
  | apart preference value =>
      have told : command.grammar.item preference.word =
          .ok (.option preference.word ⟨preference.rule, preference.word, none⟩) := by
        cases command <;> cases preference <;> rfl
      have valued : preference.rule.takesValue = true := by cases preference <;> rfl
      have notSeparator : preference.word ≠ ['-', '-'] := by cases preference <;> decide
      rw [IsAccepted, and_assoc]
      exact Grammar.readFrom_apart started valued notSeparator told
  | joined preference value =>
      have told : command.grammar.item (preference.word ++ '=' :: value) =
          .ok (.option (preference.word ++ '=' :: value)
            ⟨preference.rule, preference.word, some value⟩) := by
        cases command <;> cases preference <;> rfl
      have valued : preference.rule.takesValue = true := by cases preference <;> rfl
      have notSeparator : preference.word ++ '=' :: value ≠ ['-', '-'] := by
        have longer : 2 < preference.word.length := by cases preference <;> decide
        intro same
        have lengths := congrArg List.length same
        rw [List.length_append, List.length_cons] at lengths
        simp only [List.length_cons, List.length_nil] at lengths
        omega
      exact Grammar.readFrom_joined started valued notSeparator told

/-- Choices are read in order, and what stands behind them is read on its own. -/
theorem readFrom_flags (started : phase ≠ .before) {flags : List Flag}
    (sameTail : command.grammar.readFrom phase tail = command.grammar.readFrom .after tail) :
    command.grammar.readFrom phase (flags.flatMap arguments ++ tail) = .ok parsed ↔
      (∀ flag ∈ flags, flag.IsAccepted command.grammar) ∧
        ∃ rest, command.grammar.readFrom .after tail = .ok rest ∧
          parsed = rest.withSettings (flags.map setting) := by
  induction flags generalizing phase parsed with
  | nil => simp [sameTail, Parsed.withSettings]
  | cons flag flags inductionHypothesis =>
      rw [List.flatMap_cons, List.append_assoc, readFrom_arguments started,
        List.forall_mem_cons, and_assoc]
      simp only [inductionHypothesis (show Phase.after ≠ .before by decide) rfl]
      constructor
      · rintro ⟨first, _, ⟨others, rest, read, rfl⟩, rfl⟩
        exact ⟨first, others, rest, read, rfl⟩
      · rintro ⟨first, others, rest, read, rfl⟩
        exact ⟨first, _, ⟨others, rest, read, rfl⟩, rfl⟩

/-- What was last given for an option by choices. -/
def given (flags : List Flag) (key : Key) : Option Setting :=
  (flags.map setting).reverse.lookup key

def keys : List Key := [.noText, .config, .encoding, .format]

theorem key_mem_keys (flag : Flag) : flag.setting.1 ∈ keys := by
  cases flag with
  | noText => decide
  | apart preference value => cases preference <;> exact of_decide_eq_true rfl
  | joined preference value => cases preference <;> exact of_decide_eq_true rfl

theorem given_eq_none {key : Key} (foreign : key ∉ keys) (flags : List Flag) :
    given flags key = none := by
  rw [given, List.lookup_eq_none_iff]
  intro entry entryMem
  rcases List.mem_map.mp (List.mem_reverse.mp entryMem) with ⟨flag, _, rfl⟩
  have different : key ≠ flag.setting.1 := fun same => foreign (same ▸ flag.key_mem_keys)
  simpa using different

end Flag

/-- The arguments that ask for a token file. -/
def outputArguments : Option Text → List Text
  | none => []
  | some output => ["-o".toList, output]

def outputSettings : Option Text → List (Key × Setting)
  | none => []
  | some output => [(.output, .value output)]

/-- A command line that scans a file, perhaps into a token file. -/
def scanLine (file : Text) (flags : List Flag) (output : Option Text) : List Text :=
  Name.scan.word.toList :: file :: (flags.flatMap Flag.arguments ++ outputArguments output)

/-- A command line that shows a token file. -/
def showLine (output file : Text) (flags : List Flag) : List Text :=
  Name.show.word.toList :: output :: "-s".toList :: file :: flags.flatMap Flag.arguments

def scanArguments (file : Text) (flags : List Flag) (output : Option Text) : Arguments :=
  ⟨.scan, ⟨flags.map Flag.setting ++ outputSettings output, [file], []⟩⟩

def showArguments (output file : Text) (flags : List Flag) : Arguments :=
  ⟨.show, ⟨(.source, .value file) :: flags.map Flag.setting, [output], []⟩⟩

theorem readFrom_outputArguments {phase : Phase} (started : phase ≠ .before)
    {output : Option Text} (outputPlain : ∀ path ∈ output, path.head? ≠ some '-') :
    Name.scan.grammar.readFrom phase (outputArguments output) =
      .ok ⟨outputSettings output, [], []⟩ := by
  cases output with
  | none => exact Grammar.readFrom_nil
  | some path =>
      have plain := outputPlain path rfl
      have told : Name.scan.grammar.item "-o".toList =
          .ok (.option "-o".toList
            ⟨.valued .output ["-o", "--output"], "-o".toList, none⟩) := rfl
      refine (Grammar.readFrom_apart started rfl (by decide) told).mpr ⟨⟨?_, ?_⟩, ?_, ?_⟩
      · exact Grammar.ne_separator_of_plain plain
      · exact Grammar.item_of_plain plain
      · exact Or.inr (Or.inl rfl)
      · refine ⟨.empty, Grammar.readFrom_nil, ?_⟩
        rw [Grammar.ofValue_of_plain plain]
        rfl

section

variable {file : Text} {flags : List Flag} {arguments : Arguments}

theorem setting?_scanArguments {output : Option Text} {key : Key} (shared : key ≠ .output) :
    (scanArguments file flags output).given.setting? key = Flag.given flags key := by
  cases output with
  | none => simp [scanArguments, outputSettings, Parsed.setting?, Flag.given]
  | some path =>
      have different : (key == Key.output) = false := by simpa using shared
      simp [scanArguments, outputSettings, Parsed.setting?, Flag.given, List.lookup_cons, different]

theorem setting?_showArguments {output : Text} {key : Key} (shared : key ≠ .source) :
    (showArguments output file flags).given.setting? key = Flag.given flags key := by
  have different : (key == Key.source) = false := by simpa using shared
  simp [showArguments, Parsed.setting?, Flag.given, List.lookup_append, List.lookup_cons, different]

theorem setting?_source_showArguments {output : Text} :
    (showArguments output file flags).given.setting? .source = some (.value file) := by
  have none : Flag.given flags .source = none := Flag.given_eq_none (by decide) flags
  rw [Flag.given] at none
  simp [showArguments, Parsed.setting?, List.lookup_append, none]

theorem value?_congr {key : Key} {first second : Arguments}
    (same : first.given.setting? key = second.given.setting? key) :
    first.value? key = second.value? key := by
  rw [Arguments.value?, Arguments.value?, same]

theorem value?_source_scanArguments {output : Option Text} :
    (scanArguments file flags output).value? .source = none := by
  rw [Arguments.value?, setting?_scanArguments (by decide), Flag.given_eq_none (by decide)]

theorem value?_source_showArguments {output : Text} :
    (showArguments output file flags).value? .source = some file := by
  rw [Arguments.value?, setting?_source_showArguments]

theorem missing_showArguments {output : Text} :
    Name.show.grammar.missing (showArguments output file flags).given = [] := by
  have required : ∀ option ∈ Name.show.grammar.options,
      option.isRequired = true → option.key = .source := by decide
  have noneMissing : Name.show.grammar.options.filter (fun option =>
      option.isRequired &&
        ((showArguments output file flags).given.setting? option.key).isNone) = [] := by
    rw [List.filter_eq_nil_iff]
    intro option optionMem
    by_cases isRequired : option.isRequired = true
    · rw [required option optionMem isRequired, setting?_source_showArguments]
      simp
    · simp [isRequired]
  rw [Grammar.missing, noneMissing]
  rfl

theorem parse_scanLine_eq_ok_iff (filePlain : file.head? ≠ some '-') {output : Option Text}
    (outputPlain : ∀ path ∈ output, path.head? ≠ some '-') :
    Arguments.parse (scanLine file flags output) = .ok arguments ↔
      (∀ flag ∈ flags, flag.IsAccepted Name.scan.grammar) ∧
        arguments = scanArguments file flags output := by
  have tail (phase : Phase) (started : phase ≠ .before) :=
    readFrom_outputArguments started outputPlain
  have sameTail := (tail .closing (by decide)).trans (tail .after (by decide)).symm
  have single : Name.scan.grammar.arity = .one := rfl
  rw [scanLine, Arguments.parse_word_eq_ok_iff]
  simp only [Grammar.parse_eq_ok_iff, Grammar.readFrom_positional single filePlain,
    Flag.readFrom_flags (show Phase.closing ≠ .before by decide) sameTail,
    tail .after (by decide), Except.ok.injEq]
  constructor
  · rintro ⟨_, ⟨⟨_, ⟨accepted, _, rfl, rfl⟩, rfl⟩, _⟩, _, rfl⟩
    exact ⟨accepted, rfl⟩
  · rintro ⟨accepted, rfl⟩
    exact ⟨_, ⟨⟨_, ⟨accepted, _, rfl, rfl⟩, rfl⟩, rfl⟩, rfl, rfl⟩

theorem parse_showLine_eq_ok_iff {output : Text} (outputPlain : output.head? ≠ some '-')
    (filePlain : file.head? ≠ some '-') :
    Arguments.parse (showLine output file flags) = .ok arguments ↔
      (∀ flag ∈ flags, flag.IsAccepted Name.show.grammar) ∧
        arguments = showArguments output file flags := by
  have told : Name.show.grammar.item "-s".toList =
      .ok (.option "-s".toList
        ⟨{ OptionRule.valued .source ["-s", "--source"] with isRequired := true },
          "-s".toList, none⟩) := rfl
  have flagsRead (parsed : Parsed) :
      Name.show.grammar.readFrom .after (flags.flatMap Flag.arguments) = .ok parsed ↔
        (∀ flag ∈ flags, flag.IsAccepted Name.show.grammar) ∧
          parsed = ⟨flags.map Flag.setting, [], []⟩ := by
    have read : Name.show.grammar.readFrom .after (flags.flatMap Flag.arguments ++ []) =
        .ok parsed ↔ _ := Flag.readFrom_flags (by decide) rfl
    simpa [Grammar.readFrom_nil, Parsed.withSettings, Parsed.empty] using read
  have single : Name.show.grammar.arity = .one := rfl
  rw [showLine, Arguments.parse_word_eq_ok_iff]
  simp only [Grammar.parse_eq_ok_iff, Grammar.readFrom_positional single outputPlain,
    Grammar.readFrom_apart (show Phase.closing ≠ .before by decide) rfl (by decide) told,
    flagsRead]
  constructor
  · rintro ⟨_, ⟨⟨_, ⟨_, _, _, ⟨accepted, rfl⟩, rfl⟩, rfl⟩, _⟩, _, rfl⟩
    refine ⟨accepted, ?_⟩
    rw [Grammar.ofValue_of_plain filePlain]
    rfl
  · rintro ⟨accepted, rfl⟩
    refine ⟨_, ⟨⟨_, ⟨?_, ?_, _, ⟨accepted, rfl⟩, rfl⟩, rfl⟩, ?_⟩, rfl, ?_⟩
    · exact ⟨Grammar.ne_separator_of_plain filePlain, Grammar.item_of_plain filePlain⟩
    · exact Or.inr (Or.inl rfl)
    · rw [Grammar.ofValue_of_plain filePlain]
      exact missing_showArguments
    · rw [Grammar.ofValue_of_plain filePlain]
      rfl

end

end Lexeme.Command
