import Lexeme.Proofs.Command.RoundTrip

/-!
# What a run leaves behind

A run does all that it was asked to do or nothing. Everything that can go wrong goes wrong before
the first letter is printed and before the one file that a run writes is touched: only a scan into
a token file writes a file, and it prints nothing.
-/

namespace Lexeme.Command

/-- The token file that is to be written: what a scan is given as its output, unless that is
empty. -/
def Arguments.tokenFile? (arguments : Arguments) : Option Path :=
  match arguments.command with
  | .scan => (arguments.value? .output).bind Path.ofText?
  | .show | .classify => none

variable {directory : Directory} {arguments : Arguments} {options : Options} {outcome : Outcome}

theorem fields_of_resolve (resolved : Options.resolve directory arguments = .ok options) :
    options.command = arguments.command ∧
      options.input = arguments.input?.bind Path.ofText? ∧
      options.output = (arguments.value? .output).bind Path.ofText? ∧
      options.debug = arguments.isRaised .debug := by
  rcases exists_of_resolve resolved with ⟨_, _, _, _, _, _, rfl⟩
  exact ⟨rfl, rfl, rfl, rfl⟩

theorem tokenFile?_eq_some_iff {output : Path}
    (resolved : Options.resolve directory arguments = .ok options) :
    arguments.tokenFile? = some output ↔
      options.command = .scan ∧ options.output = some output := by
  rcases fields_of_resolve resolved with ⟨sameCommand, _, sameOutput, _⟩
  rw [sameCommand, sameOutput, Arguments.tokenFile?]
  cases arguments.command <;> simp

/-- A run that does not end well has printed nothing and changed no file. -/
theorem untouched_of_run (failed : (arguments.run directory).ending ≠ .exit 0) :
    (arguments.run directory).out = [] ∧ (arguments.run directory).directory = directory := by
  cases resolved : Options.resolve directory arguments with
  | error problem =>
      simp only [Arguments.run, resolved]
      split <;> exact ⟨rfl, rfl⟩
  | ok options =>
      simp only [Arguments.run, resolved] at failed ⊢
      cases performed : (options.perform directory).result with
      | ok done =>
          rw [Options.run, performed] at failed
          exact absurd rfl failed
      | error failure =>
          rw [Options.run_of_failed performed]
          exact options.isAllOrNothing_perform directory failure performed

/-- Writing a file is noticed at one place only. -/
theorem entry?_of_write {path : Path} {contents : Bytes} {written : Directory} {place : Location}
    (wrote : directory.write path contents = .ok written)
    (elsewhere : directory.locate path ≠ .ok place) :
    written.entry? place = directory.entry? place := by
  rcases Directory.write_eq_ok_iff.mp wrote with ⟨there, found, opened, rfl⟩
  have below := Directory.below_of_ne_folder (Directory.ne_folder_of_openFile opened)
  have located := (Directory.openFile_eq_ok_iff.mp opened).2.1
  rw [Directory.entry?_put directory below, if_neg]
  rintro rfl
  exact elsewhere located

/-- A run that does not end well has printed nothing and changed no file. A run that ends well
has changed no file but the token file that it was to write; that holds the records of the tokens
of the source, and nothing is printed beside it. -/
theorem runs_do_all_or_nothing {line : List Text} (ran : run directory line = .ok outcome) :
    (outcome.ending ≠ .exit 0 → outcome.out = [] ∧ outcome.directory = directory) ∧
      (outcome.ending = .exit 0 → ∃ arguments options,
        Arguments.parse line = .ok arguments ∧
        Options.resolve directory arguments = .ok options ∧
        (arguments.tokenFile? = none → outcome.directory = directory) ∧
        ∀ output, arguments.tokenFile? = some output →
          outcome.out = [] ∧
          (∃ input data tokens contents, arguments.input?.bind Path.ofText? = some input ∧
            directory.read input = .ok data ∧ tokenize data options.encoding = .ok tokens ∧
            TokenFile.encode tokens = .ok contents ∧
            outcome.directory.read output = .ok contents) ∧
          ∀ place, directory.locate output ≠ .ok place →
            outcome.directory.entry? place = directory.entry? place) := by
  rcases run_eq_ok_iff.mp ran with ⟨arguments, parsed, rfl⟩
  refine ⟨untouched_of_run, ?_⟩
  intro ended
  rcases resolve_of_run ended with ⟨options, err, out, after, resolved, performed, sameOutcome⟩
  rw [sameOutcome]
  refine ⟨arguments, options, parsed, resolved, ?_, ?_⟩
  · intro noTokenFile
    have reports : options.command = .scan → options.output = none := by
      intro scans
      cases chosen : options.output with
      | none => rfl
      | some output =>
          rw [(tokenFile?_eq_some_iff resolved).mpr ⟨scans, chosen⟩] at noTokenFile
          contradiction
    have keeps := options.keepsFiles_perform reports directory
    rwa [performed] at keeps
  · intro output tokenFile
    rcases (tokenFile?_eq_some_iff resolved).mp tokenFile with ⟨scans, chosen⟩
    have scanned : options.scanSource directory = ⟨out, err, after, .ok ()⟩ := by
      rw [← performed, Options.perform, scans]
    have written := Options.written_of_scanSource chosen (by rw [scanned])
    rw [scanned] at written
    rcases written with ⟨nothing, data, tokens, contents, found, encoded, wrote⟩
    rcases Options.findSource_eq_ok_iff.mp found with ⟨input, given, readInput, tokenized⟩
    rw [(fields_of_resolve resolved).2.1] at given
    refine ⟨nothing, ?_, ?_⟩
    · exact ⟨input, data, tokens, contents, given, readInput, tokenized, encoded,
        Directory.read_of_write wrote⟩
    · intro place elsewhere
      exact entry?_of_write wrote elsewhere

/-- A scan into a token file beside the source. -/
theorem scan_does_all : ∃ outcome,
    run sourceDirectory
        (scanLine "a.src".toList [.apart .config "c.toml".toList] (some "t".toList)) =
      .ok outcome ∧
    outcome.ending = .exit 0 ∧ outcome.out = [] ∧
    ∃ contents, outcome.directory.read (.ofText "t".toList) = .ok contents := by
  have scanned : ∃ err, run sourceDirectory
      (scanLine "a.src".toList [.apart .config "c.toml".toList] (some "t".toList)) =
        .ok ⟨.exit 0, [], err, tokenDirectory⟩ :=
    run_sourceDirectory (by decide) (by decide) rfl rfl
  rcases scanned with ⟨err, scanned⟩
  rcases (runs_do_all_or_nothing scanned).2 rfl with ⟨arguments, _, parsed, _, _, written⟩
  have read := (parse_scanLine_eq_ok_iff (by decide) (by decide)).mp parsed
  have tokenFile : arguments.tokenFile? = some (.ofText "t".toList) := by
    rw [read.2]
    rfl
  rcases written _ tokenFile with ⟨nothing, ⟨_, _, _, contents, _, _, _, _, readBack⟩, _⟩
  exact ⟨_, scanned, rfl, nothing, contents, readBack⟩

end Lexeme.Command
