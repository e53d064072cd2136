import Lexeme.Proofs.Command.ExitCode
import Lexeme.Proofs.Command.Given
import Lexeme.Proofs.Encoding.Utf8
import Lexeme.Proofs.Toml

/-!
# Options before the configuration

What an option on the command line settles is not looked up in the configuration file. Whatever
the file says about an encoding that the command line names, or about texts that it suppresses,
makes no difference. The layout is another matter: a layout that the file names is judged before
the command line is asked, so the file makes no difference only as long as there is a layout by
every name in it. A name without a layout is refused whether or not it is overridden.
-/

namespace Lexeme.Command

/-- Whether two configurations say the same about everything but one key. -/
def AgreeBut (key : String) (first second : Toml.Table) : Prop :=
  ∀ other, other ≠ key.toList → first.lookup other = second.lookup other

/-- Whether two configurations differ at most in the setting that an option overrides. -/
inductive DifferAtMost (first second : Toml.Table) : Key → Prop
  | encoding (same : AgreeBut "encoding" first second) : DifferAtMost first second .encoding
  | format (same : AgreeBut "output" first second)
      (sameOutput : AgreeBut "format" (outputConfig first) (outputConfig second)) :
      DifferAtMost first second .format
  | showText (same : AgreeBut "output" first second)
      (sameOutput : AgreeBut "show_text" (outputConfig first) (outputConfig second)) :
      DifferAtMost first second .noText

/-- Whether a configuration gives a layout that there is not. -/
def HasForeignFormat (config : Toml.Table) : Prop :=
  ∃ value, (outputConfig config).lookup "format".toList = some value ∧ ¬IsLayout value

section

variable {first second config : Toml.Table}

theorem agreeBut_singleton (key : String) (value other : Datum) :
    AgreeBut key [(key.toList, value)] [(key.toList, other)] := by
  intro another different
  have notSame : (another == key.toList) = false := by simpa using different
  rw [List.lookup_cons, List.lookup_cons, notSame]

theorem configText?_congr {key : String}
    (same : first.lookup key.toList = second.lookup key.toList) :
    configText? first key = configText? second key := by
  rw [configText?, configText?, same]

theorem outputConfig_congr
    (same : first.lookup "output".toList = second.lookup "output".toList) :
    outputConfig first = outputConfig second := by
  rw [outputConfig, outputConfig, same]

theorem configFormat_congr (same : (outputConfig first).lookup "format".toList =
    (outputConfig second).lookup "format".toList) :
    configFormat (outputConfig first) = configFormat (outputConfig second) := by
  rw [configFormat, configFormat, same]

theorem configShowText_congr (same : (outputConfig first).lookup "show_text".toList =
    (outputConfig second).lookup "show_text".toList) :
    configShowText (outputConfig first) = configShowText (outputConfig second) := by
  rw [configShowText, configShowText, same]

theorem exists_configFormat (own : ¬HasForeignFormat config) :
    ∃ format, configFormat (outputConfig config) = .ok format := by
  cases configured : configFormat (outputConfig config) with
  | ok format => exact ⟨format, rfl⟩
  | error problem => exact absurd (exists_of_configFormat configured) own

end

section

variable {line : List Text} {arguments : Arguments} {first second config : Toml.Table}

/-- An encoding that is given is used whatever the configuration says. -/
theorem settleEncoding_of_given (parsed : Arguments.parse line = .ok arguments)
    (given : arguments.isRaised .encoding = true) (first second : Toml.Table) :
    Options.settleEncoding arguments first = Options.settleEncoding arguments second := by
  have valued : ∀ option ∈ arguments.command.grammar.options,
      option.key = .encoding → option.takesValue = true := by
    cases arguments.command <;> decide
  rcases isBlank_or_exists_value parsed valued given with blank | ⟨_, _, name, _, found, _⟩
  · rw [settleEncoding_of_blank blank, settleEncoding_of_blank blank]
  · simp only [Options.settleEncoding, found, Option.getD_some]

/-- A layout that is given is used whichever layout the configuration names. -/
theorem settleFormat_of_given (parsed : Arguments.parse line = .ok arguments)
    (given : arguments.isRaised .format = true) (own : ¬HasForeignFormat first)
    (otherOwn : ¬HasForeignFormat second) :
    Options.settleFormat arguments first = Options.settleFormat arguments second := by
  rcases exists_configFormat own with ⟨format, configured⟩
  rcases exists_configFormat otherOwn with ⟨other, otherConfigured⟩
  rw [Options.settleFormat, Options.settleFormat, configured, otherConfigured]
  have valued : ∀ option ∈ arguments.command.grammar.options,
      option.key = .format → option.takesValue = true := by
    cases arguments.command <;> decide
  have named : ∀ option ∈ arguments.command.grammar.options, option.key = .format →
      option.choices ≠ [] ∧ ∀ value ∈ option.choices, (Report.Format.ofName? value).isSome := by
    cases arguments.command <;> decide
  rcases isBlank_or_exists_value parsed valued given with
    blank | ⟨option, optionMem, value, isFormat, found, allowed⟩
  · simp only [blank, if_true]
    rfl
  · have choices := named option optionMem isFormat
    rcases Option.isSome_iff_exists.mp (choices.2 value (allowed.resolve_left choices.1)) with
      ⟨chosen, isChosen⟩
    simp only [found, Option.bind_some, isChosen, Option.getD_some]
    rfl

theorem merge_congr
    (sameEncoding :
      Options.settleEncoding arguments first = Options.settleEncoding arguments second)
    (sameFormat : Options.settleFormat arguments first = Options.settleFormat arguments second)
    (sameTexts : (!arguments.isRaised .noText && configShowText (outputConfig first)) =
      (!arguments.isRaised .noText && configShowText (outputConfig second))) :
    Options.merge arguments first = Options.merge arguments second := by
  rw [Options.merge, Options.merge, sameEncoding, sameFormat, sameTexts]

/-- Configurations that differ at most in what is overridden settle the same, unless the layout is
overridden and one of them names one that there is not. -/
theorem merge_of_differAtMost {key : Key} (parsed : Arguments.parse line = .ok arguments)
    (given : arguments.isRaised key = true) (differ : DifferAtMost first second key)
    (own : key = .format → ¬HasForeignFormat first ∧ ¬HasForeignFormat second) :
    Options.merge arguments first = Options.merge arguments second := by
  cases differ with
  | encoding same =>
      have sameOutput := outputConfig_congr (same _ (by decide))
      apply merge_congr (settleEncoding_of_given parsed given first second)
      · rw [Options.settleFormat, Options.settleFormat, sameOutput]
      · rw [sameOutput]
  | format same sameOutput =>
      have sameName : configText? first "encoding" = configText? second "encoding" :=
        configText?_congr (same _ (by decide))
      have foreign := own rfl
      apply merge_congr
      · rw [Options.settleEncoding, Options.settleEncoding, sameName]
      · exact settleFormat_of_given parsed given foreign.1 foreign.2
      · rw [configShowText_congr (sameOutput _ (by decide))]
  | showText same sameOutput =>
      have sameName : configText? first "encoding" = configText? second "encoding" :=
        configText?_congr (same _ (by decide))
      apply merge_congr
      · rw [Options.settleEncoding, Options.settleEncoding, sameName]
      · rw [Options.settleFormat, Options.settleFormat,
          configFormat_congr (sameOutput _ (by decide))]
      · rw [given, Bool.not_true, Bool.false_and, Bool.false_and]

/-- A layout that there is not is refused, with or without an option for the layout, unless the
encoding has been refused before. -/
theorem merge_of_foreign {value : Datum}
    (configured : (outputConfig config).lookup "format".toList = some value)
    (foreign : ¬IsLayout value) :
    Options.merge arguments config = (Options.settleEncoding arguments config >>= fun _ =>
      .error (if value.holdsLongInteger then .formatTooLong else .format value)) := by
  have refused : Options.settleFormat arguments config =
      .error (if value.holdsLongInteger then .formatTooLong else .format value) :=
    settleFormat_eq_error_iff.mpr (configFormat_of_foreign configured foreign)
  rw [Options.merge, refused]
  rfl

theorem resolve_of_loadConfig {directory : Directory}
    (loaded : loadConfig directory (Options.configPathOf arguments) = .ok config) :
    Options.resolve directory arguments = Options.merge arguments config := by
  rw [Options.resolve, loaded]
  rfl

/-- An option makes the value of its setting in the configuration file irrelevant, whatever the
rest of the file says, except that a layout in the file must be one that there is. Otherwise the
settings are refused for it, option or no option. -/
theorem option_overrides_config {directory other : Directory} {key : Key}
    (parsed : Arguments.parse line = .ok arguments) (given : arguments.isRaised key = true)
    (loaded : loadConfig directory (Options.configPathOf arguments) = .ok first)
    (otherLoaded : loadConfig other (Options.configPathOf arguments) = .ok second)
    (differ : DifferAtMost first second key) :
    ((key = .format → ¬HasForeignFormat first ∧ ¬HasForeignFormat second) →
      Options.resolve directory arguments = Options.resolve other arguments) ∧
    ∀ value, (outputConfig first).lookup "format".toList = some value → ¬IsLayout value →
      Options.resolve directory arguments = (Options.settleEncoding arguments first >>= fun _ =>
        .error (if value.holdsLongInteger then .formatTooLong else .format value)) := by
  rw [resolve_of_loadConfig loaded, resolve_of_loadConfig otherLoaded]
  refine ⟨merge_of_differAtMost parsed given differ, ?_⟩
  intro value configured foreign
  exact merge_of_foreign configured foreign

end

section

/-- A directory with a source and a configuration file. -/
def configuredDirectory (config : Text) : Directory :=
  sourceDirectory.add (.ofText configName) (some (Utf8.encode config))

theorem loadConfig_configuredDirectory {config : Text} {table : Toml.Table}
    (read : Toml.parse config = .ok table) :
    loadConfig (configuredDirectory config) (.ofText configName) = .ok table := by
  have contents : (configuredDirectory config).read (.ofText configName) =
      .ok (Utf8.encode config) := by
    rfl
  have decoded : Utf8.decode (Utf8.encode config) = .ok config := Utf8.decode_eq_ok_iff.mpr rfl
  rw [loadConfig_of_read contents, decoded]
  simp only [read]

theorem parse_scanLine_apart {preference : Preference} {value : Text}
    (plain : value.head? ≠ some '-') (accepted : preference.rule.Accepts value) :
    Arguments.parse (scanLine "a.src".toList [.apart preference value] none) =
      .ok (scanArguments "a.src".toList [.apart preference value] none) := by
  have flagAccepted : (Flag.apart preference value).IsAccepted Name.scan.grammar :=
    ⟨⟨Grammar.ne_separator_of_plain plain, Grammar.item_of_plain plain⟩, accepted⟩
  rw [parse_scanLine_eq_ok_iff (by decide) (by simp)]
  exact ⟨List.forall_mem_singleton.mpr flagAccepted, rfl⟩

/-- Two names of encodings in the configuration file, neither of which is one. -/
theorem option_overrides_config_of_encoding : ∃ arguments,
    Arguments.parse (scanLine "a.src".toList [.apart .encoding "ascii".toList] none) =
        .ok arguments ∧
      loadConfig (configuredDirectory "encoding = \"nope\"\n".toList)
          (Options.configPathOf arguments) =
        .ok [("encoding".toList, .text "nope".toList)] ∧
      loadConfig (configuredDirectory "encoding = 5\n".toList) (Options.configPathOf arguments) =
        .ok [("encoding".toList, .int 5)] ∧
      Options.resolve (configuredDirectory "encoding = \"nope\"\n".toList) arguments =
        Options.resolve (configuredDirectory "encoding = 5\n".toList) arguments := by
  have parsed : Arguments.parse
      (scanLine "a.src".toList [.apart .encoding "ascii".toList] none) =
        .ok (scanArguments "a.src".toList [.apart .encoding "ascii".toList] none) :=
    parse_scanLine_apart (by decide) (Or.inr (Or.inl rfl))
  have consulted : Options.configPathOf
      (scanArguments "a.src".toList [.apart .encoding "ascii".toList] none) =
        .ofText configName := by
    rfl
  have entry : Toml.Document.empty.readStatement "encoding = \"nope\"\n".toList =
      .ok (⟨[("encoding".toList, .text "nope".toList)], [], [], [], []⟩, ['\n']) :=
    Toml.Document.readEntry_of_isPlain "encoding".toList "nope".toList ['\n'] (by decide)
      (by decide) (by decide) (by decide) rfl
  have number : Toml.readValue "5\n".toList = .ok (.int 5, ['\n']) := by
    unfold Toml.readValue
    rfl
  have key : Toml.readKey ("encoding".toList ++ " = 5\n".toList) =
      .ok (["encoding".toList], "= 5\n".toList) :=
    Toml.readKey_of_isBare (by decide) (by decide) (by decide) (by decide)
  have otherEntry : Toml.Document.empty.readStatement "encoding = 5\n".toList =
      .ok (⟨[("encoding".toList, .int 5)], [], [], [], []⟩, ['\n']) :=
    Toml.Document.readEntry_of_readValue key number rfl
  have loaded := loadConfig_configuredDirectory
    (Toml.parse_of_readStatement "encoding = \"nope\"\n".toList rfl entry (by decide))
  have otherLoaded := loadConfig_configuredDirectory
    (Toml.parse_of_readStatement "encoding = 5\n".toList rfl otherEntry (by decide))
  rw [← consulted] at loaded otherLoaded
  have settled := option_overrides_config parsed rfl loaded otherLoaded
    (.encoding (agreeBut_singleton _ _ _))
  exact ⟨_, parsed, loaded, otherLoaded, settled.1 (absurd · (by decide))⟩

/-- A configuration that only names a layout. -/
def formatTable (name : Text) : Toml.Table :=
  [("output".toList, .table [("format".toList, .text name)])]

/-- A layout by any name that needs no escapes is read from its table. -/
theorem readLines_formatTable (name : Text) (plain : Toml.IsPlain name) (nonempty : name ≠ []) :
    Toml.Document.empty.readLines ("[output]\nformat = \"".toList ++ (name ++ ['"', '\n'])) =
      .ok ⟨formatTable name, ["output".toList], [["output".toList]], [], []⟩ := by
  have headed : Toml.Document.empty.readStatement
      (Toml.skipBlanks ("[output]\nformat = \"".toList ++ (name ++ ['"', '\n']))) =
        .ok (⟨[("output".toList, .table [])], ["output".toList], [["output".toList]], [], []⟩,
          '\n' :: ("format = \"".toList ++ (name ++ ['"', '\n']))) :=
    Toml.Document.readHeader_of_isBare "output".toList _ (by decide) (by decide) rfl
  have named : Toml.Document.readStatement
      ⟨[("output".toList, .table [])], ["output".toList], [["output".toList]], [], []⟩
      (Toml.skipBlanks ("format = \"".toList ++ (name ++ ['"', '\n']))) =
        .ok (⟨formatTable name, ["output".toList], [["output".toList]], [], []⟩, ['\n']) :=
    Toml.Document.readEntry_of_isPlain "format".toList name ['\n'] (by decide) (by decide) plain
      nonempty rfl
  rw [Toml.Document.readLines_of_readStatement headed (by simp),
    Toml.Document.readLines_of_readStatement named (by simp), Toml.Document.readLines_nil]

/-- A layout that the command line overrides is refused all the same if there is none by its name,
while another one in its place makes no difference. -/
theorem foreign_format_is_refused : ∃ arguments,
    Arguments.parse (scanLine "a.src".toList [.apart .format "json".toList] none) =
        .ok arguments ∧
      arguments.isRaised .format = true ∧
      loadConfig (configuredDirectory "[output]\nformat = \"table\"\n".toList)
          (Options.configPathOf arguments) =
        .ok (formatTable "table".toList) ∧
      loadConfig (configuredDirectory "[output]\nformat = \"xml\"\n".toList)
          (Options.configPathOf arguments) =
        .ok (formatTable "xml".toList) ∧
      DifferAtMost (formatTable "table".toList) (formatTable "xml".toList) .format ∧
      Options.resolve (configuredDirectory "[output]\nformat = \"table\"\n".toList) arguments =
        .ok (Manner.scanning ⟨"utf-8".toList, some .json, true⟩ "a.src".toList none) ∧
      Options.resolve (configuredDirectory "[output]\nformat = \"xml\"\n".toList) arguments =
        .error (.format (.text "xml".toList)) := by
  have parsed : Arguments.parse (scanLine "a.src".toList [.apart .format "json".toList] none) =
      .ok (scanArguments "a.src".toList [.apart .format "json".toList] none) :=
    parse_scanLine_apart (by decide) (Or.inr (Or.inr (by decide)))
  have consulted : Options.configPathOf
      (scanArguments "a.src".toList [.apart .format "json".toList] none) = .ofText configName := by
    rfl
  have table : Toml.parse "[output]\nformat = \"table\"\n".toList =
      .ok (formatTable "table".toList) :=
    congrArg (Except.map _) (readLines_formatTable "table".toList (by decide) (by decide))
  have xml : Toml.parse "[output]\nformat = \"xml\"\n".toList =
      .ok (formatTable "xml".toList) :=
    congrArg (Except.map _) (readLines_formatTable "xml".toList (by decide) (by decide))
  have loaded := loadConfig_configuredDirectory table
  have otherLoaded := loadConfig_configuredDirectory xml
  rw [← consulted] at loaded otherLoaded
  refine ⟨_, parsed, rfl, loaded, otherLoaded, ?_, ?_, ?_⟩
  · exact .format (agreeBut_singleton _ _ _) (agreeBut_singleton _ _ _)
  · rw [resolve_of_loadConfig loaded]
    rfl
  · rw [resolve_of_loadConfig otherLoaded]
    rfl

end

end Lexeme.Command
