import Lexeme.Command.Run
import Lexeme.Proofs.Command.Flags
import Lexeme.Proofs.Directory
import Lexeme.Proofs.Encoding.Name

/-!
# The settings behind choices

What a source is decoded with and how a report looks is settled by the choices on the command
line and the configuration file beside the source. Scanning a source and showing its token
file with the same choices settle it alike.
-/

namespace Lexeme.Command

/-- How a source is read and how it is reported. -/
structure Manner where
  encoding : Text
  format : Option Report.Format
  showText : Bool

namespace Manner

def scanning (manner : Manner) (file : Text) (output : Option Text) : Options where
  command := .scan
  input := Path.ofText? file
  output := output.bind Path.ofText?
  source := none
  words := []
  encoding := manner.encoding
  format := manner.format
  showText := manner.showText
  debug := false

def showing (manner : Manner) (output file : Text) : Options where
  command := .show
  input := Path.ofText? output
  output := none
  source := Path.ofText? file
  words := []
  encoding := manner.encoding
  format := manner.format
  showText := manner.showText
  debug := false

end Manner

theorem ofText?_of_nonempty {text : Text} (nonempty : text ≠ []) :
    Path.ofText? text = some (.ofText text) := by
  rw [Path.ofText?, if_neg (by simpa using nonempty)]

/-- The name of the encoding that arguments and a configuration settle on, if it is acceptable. -/
def effectiveName (arguments : Arguments) (config : Toml.Table) : Text :=
  (arguments.value? .encoding).getD ((configText? config "encoding").getD "utf-8".toList)

theorem settleEncoding_of_present {arguments : Arguments}
    (present : arguments.isBlank .encoding = false) (config : Toml.Table) :
    Options.settleEncoding arguments config =
      (Encoding.checkName (effectiveName arguments config)).mapError .encoding := by
  rw [Options.settleEncoding, present]
  rfl

theorem settleEncoding_of_blank {arguments : Arguments}
    (blank : arguments.isBlank .encoding = true) (config : Toml.Table) :
    Options.settleEncoding arguments config = .error .encodingBlank :=
  if_pos blank

theorem settleEncoding_eq_ok_iff {arguments : Arguments} {config : Toml.Table} {name : Text} :
    Options.settleEncoding arguments config = .ok name ↔
      arguments.isBlank .encoding = false ∧ name = effectiveName arguments config ∧
        Encoding.checkName name = .ok name := by
  cases present : arguments.isBlank .encoding with
  | true =>
      rw [settleEncoding_of_blank present]
      simp
  | false =>
      rw [settleEncoding_of_present present, Except.mapError_eq_ok_iff]
      constructor
      · intro accepted
        obtain rfl := (Encoding.checkName_eq_ok_iff.mp accepted).1
        exact ⟨rfl, rfl, accepted⟩
      · rintro ⟨_, rfl, accepted⟩
        exact accepted

namespace Options

theorem settleEncoding_congr {first second : Arguments}
    (same : first.given.setting? .encoding = second.given.setting? .encoding)
    (config : Toml.Table) : settleEncoding first config = settleEncoding second config := by
  unfold settleEncoding Arguments.isBlank
  rw [value?_congr same, same]

theorem settleFormat_congr {first second : Arguments}
    (same : first.given.setting? .format = second.given.setting? .format)
    (config : Toml.Table) : settleFormat first config = settleFormat second config := by
  unfold settleFormat Arguments.isBlank
  rw [value?_congr same, same]

end Options

/-- What the settings of a run are made of. -/
theorem exists_of_resolve {directory : Directory} {arguments : Arguments} {options : Options}
    (resolved : Options.resolve directory arguments = .ok options) :
    ∃ config encoding format,
      loadConfig directory (Options.configPathOf arguments) = .ok config ∧
      Options.settleEncoding arguments config = .ok encoding ∧
      Options.settleFormat arguments config = .ok format ∧
      options = {
        command := arguments.command
        input := arguments.input?.bind Path.ofText?
        output := (arguments.value? .output).bind Path.ofText?
        source := (arguments.value? .source).bind Path.ofText?
        words := arguments.words
        encoding
        format
        showText := !arguments.isRaised .noText && configShowText (outputConfig config)
        debug := arguments.isRaised .debug } := by
  rcases Except.bind_eq_ok_iff.mp resolved with ⟨config, loaded, merged⟩
  rcases Except.bind_eq_ok_iff.mp merged with ⟨encoding, encodingSettled, formatted⟩
  rcases Except.bind_eq_ok_iff.mp formatted with ⟨format, formatSettled, result⟩
  exact ⟨config, encoding, format, loaded, encodingSettled, formatSettled,
    (Except.ok.inj result).symm⟩

namespace Flag

/-- What choices and a configuration settle. -/
def settle (flags : List Flag) (config : Toml.Table) : Except SettingsProblem Manner := do
  let encoding ← Options.settleEncoding (scanArguments [] flags none) config
  let format ← Options.settleFormat (scanArguments [] flags none) config
  pure {
    encoding
    format
    showText := !(given flags .noText).isSome &&
      configShowText (outputConfig config) }

/-- The configuration file that is consulted for a source. -/
def configPath (flags : List Flag) (file : Text) : Path :=
  Options.configPathOf (scanArguments file flags none)

/-- What choices settle for a source in a directory. -/
def manner (directory : Directory) (flags : List Flag) (file : Text) :
    Except SettingsProblem Manner :=
  loadConfig directory (configPath flags file) >>= settle flags

end Flag

section

variable {file : Text} {flags : List Flag}

/-- Arguments in which the shared options stand for choices settle what the choices do. -/
theorem merge_eq_map_settle {arguments : Arguments}
    (shared : ∀ key, key ≠ .output → key ≠ .source →
      arguments.given.setting? key = Flag.given flags key) (config : Toml.Table) :
    Options.merge arguments config = (Flag.settle flags config).map fun manner => {
      command := arguments.command
      input := arguments.input?.bind Path.ofText?
      output := (arguments.value? .output).bind Path.ofText?
      source := (arguments.value? .source).bind Path.ofText?
      words := arguments.words
      encoding := manner.encoding
      format := manner.format
      showText := manner.showText
      debug := false } := by
  have same (key : Key) (notOutput : key ≠ .output) (notSource : key ≠ .source) :
      arguments.given.setting? key = (scanArguments [] flags none).given.setting? key := by
    rw [shared key notOutput notSource, setting?_scanArguments notOutput]
  have debug : arguments.isRaised .debug = false := by
    rw [Arguments.isRaised, shared .debug (by decide) (by decide),
      Flag.given_eq_none (by decide)]
    rfl
  have noText : arguments.isRaised .noText = (Flag.given flags .noText).isSome := by
    rw [Arguments.isRaised, shared .noText (by decide) (by decide)]
  simp only [Options.merge, Flag.settle]
  rw [Options.settleEncoding_congr (same .encoding (by decide) (by decide)),
    Options.settleFormat_congr (same .format (by decide) (by decide)), debug, noText]
  cases Options.settleEncoding (scanArguments [] flags none) config with
  | error problem => rfl
  | ok encoding => cases Options.settleFormat (scanArguments [] flags none) config <;> rfl

theorem merge_scanArguments (output : Option Text) (config : Toml.Table) :
    Options.merge (scanArguments file flags output) config =
      (Flag.settle flags config).map (·.scanning file output) := by
  have given : (scanArguments file flags output).value? .output = output := by
    have none : Flag.given flags .output = none := Flag.given_eq_none (by decide) flags
    rw [Flag.given] at none
    cases output <;>
      simp [Arguments.value?, Parsed.setting?, scanArguments, outputSettings, none]
  rw [merge_eq_map_settle fun key notOutput _ => setting?_scanArguments notOutput, given,
    value?_source_scanArguments]
  rfl

theorem merge_showArguments (output : Text) (config : Toml.Table) :
    Options.merge (showArguments output file flags) config =
      (Flag.settle flags config).map (·.showing output file) := by
  have given : (showArguments output file flags).value? .output = none := by
    rw [Arguments.value?, setting?_showArguments (by decide), Flag.given_eq_none (by decide)]
  rw [merge_eq_map_settle fun key _ notSource => setting?_showArguments notSource, given,
    value?_source_showArguments]
  rfl

theorem configPathOf_scanArguments (output : Option Text) :
    Options.configPathOf (scanArguments file flags output) = Flag.configPath flags file := by
  have config : (scanArguments file flags output).value? .config =
      (scanArguments file flags none).value? .config := by
    apply value?_congr
    rw [setting?_scanArguments (by decide), setting?_scanArguments (by decide)]
  simp only [Flag.configPath, Options.configPathOf]
  rw [config, value?_source_scanArguments, value?_source_scanArguments]
  rfl

theorem configPathOf_showArguments (nonempty : file ≠ []) (output : Text) :
    Options.configPathOf (showArguments output file flags) = Flag.configPath flags file := by
  have config : (showArguments output file flags).value? .config =
      (scanArguments file flags none).value? .config := by
    apply value?_congr
    rw [setting?_showArguments (by decide), setting?_scanArguments (by decide)]
  simp only [Flag.configPath, Options.configPathOf]
  rw [config, value?_source_showArguments, value?_source_scanArguments]
  simp [scanArguments, Arguments.input?, ofText?_of_nonempty nonempty]

theorem resolve_scanArguments (directory : Directory) (output : Option Text) :
    Options.resolve directory (scanArguments file flags output) =
      (Flag.manner directory flags file).map (·.scanning file output) := by
  rw [Options.resolve, configPathOf_scanArguments, Flag.manner]
  cases loadConfig directory (Flag.configPath flags file) with
  | error problem => rfl
  | ok config => exact merge_scanArguments output config

theorem resolve_showArguments (directory : Directory) (nonempty : file ≠ []) (output : Text) :
    Options.resolve directory (showArguments output file flags) =
      (Flag.manner directory flags file).map (·.showing output file) := by
  rw [Options.resolve, configPathOf_showArguments nonempty, Flag.manner]
  cases loadConfig directory (Flag.configPath flags file) with
  | error problem => rfl
  | ok config => exact merge_showArguments output config

theorem manner_of_write_elsewhere {directory written : Directory} {path : Path}
    {contents : Bytes} (wrote : directory.write path contents = .ok written)
    (apart : directory.locate path ≠ directory.locate (Flag.configPath flags file)) :
    Flag.manner written flags file = Flag.manner directory flags file := by
  have same : loadConfig written (Flag.configPath flags file) =
      loadConfig directory (Flag.configPath flags file) := by
    simp only [loadConfig]
    rw [Directory.isFile_of_write_elsewhere wrote apart]
    split
    · rfl
    · rfl
    · cases before : directory.read (Flag.configPath flags file) with
      | ok data => rw [(Directory.read_of_write_elsewhere wrote apart).mpr before]
      | error failure =>
          cases after : written.read (Flag.configPath flags file) with
          | error _ => rfl
          | ok data =>
              rw [(Directory.read_of_write_elsewhere wrote apart).mp after] at before
              contradiction
  rw [Flag.manner, Flag.manner, same]

theorem checkName_of_settleEncoding {arguments : Arguments} {config : Toml.Table} {name : Text}
    (settled : Options.settleEncoding arguments config = .ok name) :
    Encoding.checkName name = .ok name :=
  (settleEncoding_eq_ok_iff.mp settled).2.2

/-- The name of an encoding that choices settle on is a name to decode with. -/
theorem hasName_of_manner {directory : Directory} {manner : Manner} {encoding : Encoding}
    (settled : Flag.manner directory flags file = .ok manner)
    (named : Encoding.ofName manner.encoding = .ok encoding) :
    encoding.HasName manner.encoding := by
  refine ⟨?_, named⟩
  rcases Except.bind_eq_ok_iff.mp settled with ⟨config, _, merged⟩
  rcases Except.bind_eq_ok_iff.mp merged with ⟨name, encodingSettled, rest⟩
  rcases Except.bind_eq_ok_iff.mp rest with ⟨format, _, result⟩
  cases result
  exact (Encoding.checkName_eq_ok_iff.mp (checkName_of_settleEncoding encodingSettled)).2.1

theorem isBlank_of_unset {arguments : Arguments} {key : Key}
    (unset : arguments.given.setting? key = none) : arguments.isBlank key = false := by
  rw [Arguments.isBlank, unset]
  rfl

theorem value?_of_unset {arguments : Arguments} {key : Key}
    (unset : arguments.given.setting? key = none) : arguments.value? key = none := by
  rw [Arguments.value?, unset]

/-- What is neither chosen nor configured is as it is by default. -/
theorem settle_of_unset (noEncoding : Flag.given flags .encoding = none)
    (noFormat : Flag.given flags .format = none) :
    Flag.settle flags [] =
      .ok ⟨"utf-8".toList, some .table, !(Flag.given flags .noText).isSome⟩ := by
  have encodingUnset : (scanArguments [] flags none).given.setting? .encoding = none := by
    rw [setting?_scanArguments (by decide), noEncoding]
  have formatUnset : (scanArguments [] flags none).given.setting? .format = none := by
    rw [setting?_scanArguments (by decide), noFormat]
  have encodingSettled : Options.settleEncoding (scanArguments [] flags none) [] =
      .ok "utf-8".toList := by
    have default : effectiveName (scanArguments [] flags none) [] = "utf-8".toList := by
      rw [effectiveName, value?_of_unset encodingUnset]
      rfl
    rw [settleEncoding_of_present (isBlank_of_unset encodingUnset), default,
      Encoding.checkName_of_hasName Encoding.hasName_utf8 rfl]
    rfl
  have formatSettled : Options.settleFormat (scanArguments [] flags none) [] =
      .ok (some .table) := by
    rw [Options.settleFormat, isBlank_of_unset formatUnset, value?_of_unset formatUnset]
    rfl
  rw [Flag.settle, encodingSettled, formatSettled]
  exact congrArg (fun showText => Except.ok (Manner.mk "utf-8".toList (some .table) showText))
    (Bool.and_true _)

/-- The configuration file that a choice names is the one that is consulted. -/
theorem configPath_apart {value : Text} (nonempty : value ≠ []) (present : value ≠ ['-', '-'])
    (file : Text) : Flag.configPath [.apart .config value] file = .ofText value := by
  have given : (scanArguments file [.apart .config value] none).value? .config = some value := by
    rw [Arguments.value?, setting?_scanArguments (by decide)]
    simp [Flag.given, Flag.setting, Setting.ofValue, present, Preference.rule, OptionRule.valued]
  rw [Flag.configPath, Options.configPathOf, given, Option.bind_some, ofText?_of_nonempty nonempty]
  rfl

/-- A configuration file that is not there leaves everything as it is by default. -/
theorem manner_of_missing_config {directory : Directory} {value : Text} (nonempty : value ≠ [])
    (present : value ≠ ['-', '-'])
    (missing : directory.isFile (.ofText value) = .ok false) (file : Text) :
    Flag.manner directory [.apart .config value] file =
      .ok ⟨"utf-8".toList, some .table, true⟩ := by
  have loaded : loadConfig directory (.ofText value) = .ok [] := by rw [loadConfig, missing]
  rw [Flag.manner, configPath_apart nonempty present]
  exact Except.bind_eq_ok_iff.mpr ⟨[], loaded, settle_of_unset rfl rfl⟩

end

end Lexeme.Command
