import Lexeme.Proofs.Command.Failures
import Lexeme.Proofs.Command.RoundTrip

/-!
# Exit codes

A run ends with one of three exit codes unless something escapes. What escapes is told here in
terms of the files and the command line: a configuration file that cannot be taken in, a name of
an encoding that is no name, an input that is missing, and a path with a zero character. Settings
that are refused give code 2, and data or files that are at fault give code 1.
-/

namespace Lexeme.Command

/-- Whether a configured value is the name of a layout. -/
def IsLayout (value : Datum) : Prop :=
  ∃ name format, value = .text name ∧ Report.Format.ofName? name = some format

variable {directory : Directory} {arguments : Arguments} {config : Toml.Table}
variable {problem : SettingsProblem}

section

variable {path : Path}

theorem loadConfig_of_read {data : Bytes} (read : directory.read path = .ok data) :
    loadConfig directory path =
      match Utf8.decode data with
      | .error malformed => .error (.configNotText data malformed)
      | .ok text =>
        match Toml.parse text with
        | .ok table => .ok table
        | .error .malformed => .error .configMalformed
        | .error (.numberTooLong digits) => .error (.configNumberTooLong digits) := by
  have isFile := Directory.isFile_eq_true_iff.mpr ⟨data, read⟩
  cases decoded : Utf8.decode data with
  | error malformed => simp only [loadConfig, isFile, read, decoded]
  | ok text =>
      cases parsed : Toml.parse text with
      | ok table => simp only [loadConfig, isFile, read, decoded, parsed]
      | error problem => cases problem <;> simp only [loadConfig, isFile, read, decoded, parsed]

end

theorem configFormat_of_foreign {output : Toml.Table} {value : Datum}
    (configured : output.lookup "format".toList = some value) (foreign : ¬IsLayout value) :
    configFormat output =
      .error (if value.holdsLongInteger then .formatTooLong else .format value) := by
  rw [configFormat, configured]
  cases value with
  | text name =>
      have unnamed : Report.Format.ofName? name = none := by
        cases named : Report.Format.ofName? name with
        | none => rfl
        | some format => exact absurd ⟨name, format, rfl, named⟩ foreign
      simp only [unnamed]
  | _ => rfl

theorem exists_of_configFormat {output : Toml.Table}
    (failed : configFormat output = .error problem) :
    ∃ value, output.lookup "format".toList = some value ∧ ¬IsLayout value := by
  cases configured : output.lookup "format".toList with
  | none =>
      rw [configFormat, configured] at failed
      contradiction
  | some value =>
      refine ⟨value, rfl, ?_⟩
      rintro ⟨name, format, rfl, named⟩
      simp only [configFormat, configured, named] at failed
      contradiction

/-- The layout is settled unless the configuration names none that there is. -/
theorem settleFormat_eq_error_iff :
    Options.settleFormat arguments config = .error problem ↔
      configFormat (outputConfig config) = .error problem := by
  rw [Options.settleFormat, Except.bind_eq_error_iff]
  constructor
  · rintro (failed | ⟨format, _, failed⟩)
    · exact failed
    · simp only at failed
      split at failed <;> contradiction
  · exact Or.inl

section

variable {options : Options} {encoding : Encoding}

theorem checkName_of_resolve (resolved : Options.resolve directory arguments = .ok options) :
    Encoding.checkName options.encoding = .ok options.encoding := by
  rcases exists_of_resolve resolved with ⟨_, _, _, _, encodingSettled, _, rfl⟩
  exact checkName_of_settleEncoding encodingSettled

theorem hasName_of_resolve (resolved : Options.resolve directory arguments = .ok options)
    (named : Encoding.ofName options.encoding = .ok encoding) :
    encoding.HasName options.encoding :=
  ⟨(Encoding.checkName_eq_ok_iff.mp (checkName_of_resolve resolved)).2.1, named⟩

/-- Of the encodings that can be decoded with, only those in single bytes are accepted. -/
theorem bytewise_of_resolve (resolved : Options.resolve directory arguments = .ok options)
    (named : Encoding.ofName options.encoding = .ok encoding) : encoding ∈ Encoding.bytewise :=
  Encoding.bytewise_of_isAsciiCompatible (Encoding.isAsciiCompatible_of_checkName
    (hasName_of_resolve resolved named) (checkName_of_resolve resolved))

theorem ending_of_failed {failure : CommandFailure}
    (resolved : Options.resolve directory arguments = .ok options)
    (failed : (options.perform directory).result = .error failure) :
    (arguments.run directory).ending = (options.conclude failure).1 := by
  rw [Arguments.run, resolved]
  simp only [Options.run_of_failed failed]

theorem ending_of_blamed {failure : CommandFailure}
    (resolved : Options.resolve directory arguments = .ok options)
    (failed : (options.perform directory).result = .error failure) (blamed : failure.IsBlamed) :
    (arguments.run directory).ending = .exit 1 := by
  rw [ending_of_failed resolved failed]
  cases failure with
  | noInput => contradiction
  | failure reason =>
      rcases blamed with ⟨fault, rfl⟩
      rfl
  | file problem =>
      cases problem with
      | holdsNul => contradiction
      | problem problem path => rfl

end

section

variable (addressable : ∀ path data, directory.read path = .ok data →
    (data.length : Int) ≤ Source.maxIndex)
  (decodable : ∀ options, Options.resolve directory arguments = .ok options →
    ∃ encoding ∈ Encoding.compatible, Encoding.ofName options.encoding = .ok encoding)
include decodable

include addressable

end

end Lexeme.Command
