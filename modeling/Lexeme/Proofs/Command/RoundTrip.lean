import Lexeme.Proofs.Command.Lookalike
import Lexeme.Proofs.Command.Rows
import Lexeme.Proofs.Command.Run
import Lexeme.Proofs.Command.Settings
import Lexeme.Proofs.Word.Recovery

/-!
# Token files shown again

A source that has been scanned into a token file is shown from that file as a scan without a
token file reports it. The proof follows the scan that succeeded: it read the source, wrote
the records of its tokens and touched nothing else, so what it was given is found again, and
every token's text is the word that the token was made of.
-/

namespace Lexeme.Command

namespace Manner

variable {manner : Manner} {directory after : Directory} {file output : Text}
variable {data : Bytes} {tokens : List Token} {texts : List Text} {out err : Text}

def report (manner : Manner) (tokens : List Token) (texts : List Text) : Text :=
  Report.render (manner.format.getD .table) manner.showText (Options.rowsWith tokens texts)

theorem findSource_scanning (chosen : Option Text) (fileNonempty : file ≠ [])
    (readFile : directory.read (.ofText file) = .ok data)
    (tokenized : tokenize data manner.encoding = .ok tokens) :
    (manner.scanning file chosen).findSource directory = .ok (data, tokens) :=
  Options.findSource_eq_ok_iff.mpr
    ⟨.ofText file, ofText?_of_nonempty fileNonempty, readFile, tokenized⟩

/-- A scan into a token file reads the source, writes the records of its tokens and says how
many there are. -/
theorem perform_scanning_some (outputNonempty : output ≠ []) (fileNonempty : file ≠ [])
    (readFile : directory.read (.ofText file) = .ok data)
    (tokenized : tokenize data manner.encoding = .ok tokens)
    (packable : ∀ token ∈ tokens, token.IsPackable)
    (wrote : directory.write (.ofText output) (tokens.map Token.record).flatten = .ok after) :
    (manner.scanning file (some output)).perform directory =
      ⟨[], line ("Wrote " ++ Numeral.integerString tokens.length ++ " tokens to " ++
        String.ofList (Path.ofText output).text), after, .ok ()⟩ := by
  have found := findSource_scanning (some output) fileNonempty readFile tokenized
  have chosen : (manner.scanning file (some output)).output = some (.ofText output) :=
    ofText?_of_nonempty outputNonempty
  have encoded := TokenFile.encode_eq_ok_iff.mpr ⟨packable, rfl⟩
  exact (Options.scanSource_of_plain rfl found).trans
    (Options.finishScan_of_written chosen encoded wrote)

/-- That is all there is to a scan into a token file that succeeds. -/
theorem written_of_perform (outputNonempty : output ≠ [])
    (performed : (manner.scanning file (some output)).perform directory =
      ⟨out, err, after, .ok ()⟩) :
    file ≠ [] ∧ ∃ data tokens, directory.read (.ofText file) = .ok data ∧
      tokenize data manner.encoding = .ok tokens ∧ (∀ token ∈ tokens, token.IsPackable) ∧
      directory.write (.ofText output) (tokens.map Token.record).flatten = .ok after := by
  have scanned : (manner.scanning file (some output)).scanSource directory =
      ⟨out, err, after, .ok ()⟩ := performed
  have chosen : (manner.scanning file (some output)).output = some (.ofText output) :=
    ofText?_of_nonempty outputNonempty
  have written := Options.written_of_scanSource chosen (by rw [scanned])
  rw [scanned] at written
  rcases written with ⟨_, data, tokens, contents, found, encoded, wrote⟩
  rcases Options.findSource_eq_ok_iff.mp found with ⟨input, inputGiven, readFile, tokenized⟩
  rcases TokenFile.encode_eq_ok_iff.mp encoded with ⟨packable, rfl⟩
  have fileNonempty : file ≠ [] := by
    rintro rfl
    simp [scanning, Path.ofText?] at inputGiven
  obtain rfl : Path.ofText file = input := by
    simpa [scanning, ofText?_of_nonempty fileNonempty] using inputGiven
  exact ⟨fileNonempty, data, tokens, readFile, tokenized, packable, wrote⟩

theorem perform_scanning_none (fileNonempty : file ≠ [])
    (readFile : directory.read (.ofText file) = .ok data)
    (tokenized : tokenize data manner.encoding = .ok tokens)
    (readings : Source.readings manner.encoding data tokens = texts.map .ok) :
    (manner.scanning file none).perform directory =
      ⟨manner.report tokens texts, [], directory, .ok ()⟩ := by
  have found := findSource_scanning none fileNonempty readFile tokenized
  have drawn : (Source.ofBytes data).texts manner.encoding tokens =
      (⟨tokens.zip texts, none⟩, .ofBytes data) := Source.texts_of_readings readings
  exact (Options.scanSource_of_plain rfl found).trans (Options.finishScan_of_drawn rfl drawn)

/-- Showing a token file reports the texts that its tokens have in the source. -/
theorem perform_showing (outputNonempty : output ≠ []) (fileNonempty : file ≠ [])
    (readOutput : directory.read (.ofText output) = .ok (tokens.map Token.record).flatten)
    (readFile : directory.read (.ofText file) = .ok data)
    (packable : ∀ token ∈ tokens, token.IsPackable)
    (increasing : tokens.Pairwise (·.offset < ·.offset))
    (readings : Source.readings manner.encoding data tokens = texts.map .ok) :
    (manner.showing output file).perform directory =
      ⟨manner.report tokens texts, [], directory, .ok ()⟩ := by
  have found : (manner.showing output file).findTokens directory =
      .ok (tokens.map Token.record, tokens, data) :=
    Options.findTokens_eq_ok_iff.mpr ⟨.ofText output, .ofText file,
      ofText?_of_nonempty outputNonempty, ofText?_of_nonempty fileNonempty, readOutput, readFile,
      packable, rfl⟩
  rcases (manner.showing output file).report_lookUpRows (.ofBytes data) increasing packable
    readings with ⟨rows, lookedUp, reported⟩
  refine (Options.showTokens_of_plain rfl found).trans ?_
  rw [Options.finishShow_of_rows lookedUp]
  exact congrArg (fun report => Work.mk report [] directory (.ok ())) reported

end Manner

/-- The encoding that a source is read in with some arguments, if it is one that source bytes
can be decoded with. -/
def effectiveEncoding? (directory : Directory) (arguments : Arguments) : Option Encoding :=
  match Options.resolve directory arguments with
  | .ok options => (Encoding.ofName options.encoding).toOption
  | .error _ => none

section

variable {directory : Directory} {file output : Text} {flags : List Flag} {outcome : Outcome}

theorem ofName_of_effectiveEncoding? {manner : Manner} {encoding : Encoding}
    (settled : Flag.manner directory flags file = .ok manner)
    (effective :
      effectiveEncoding? directory (scanArguments file flags none) = some encoding) :
    Encoding.ofName manner.encoding = .ok encoding := by
  simp only [effectiveEncoding?, resolve_scanArguments, settled, Except.map,
    Manner.scanning] at effective
  cases named : Encoding.ofName manner.encoding with
  | error problem => simp [named, Except.toOption] at effective
  | ok found => simpa [named, Except.toOption] using effective

/-- A command line that scans does what its choices settle. -/
theorem run_scanLine {manner : Manner} {output : Option Text} {out err : Text}
    {after : Directory} (filePlain : file.head? ≠ some '-')
    (outputPlain : ∀ path ∈ output, path.head? ≠ some '-')
    (accepted : ∀ flag ∈ flags, flag.IsAccepted Name.scan.grammar)
    (settled : Flag.manner directory flags file = .ok manner)
    (performed : (manner.scanning file output).perform directory = ⟨out, err, after, .ok ()⟩) :
    run directory (scanLine file flags output) = .ok ⟨.exit 0, out, err, after⟩ := by
  apply run_of_resolve ((parse_scanLine_eq_ok_iff filePlain outputPlain).mpr ⟨accepted, rfl⟩) ?_
    performed
  rw [resolve_scanArguments, settled]
  rfl

theorem run_showLine {manner : Manner} {out err : Text} {after : Directory}
    (outputPlain : output.head? ≠ some '-') (filePlain : file.head? ≠ some '-')
    (fileNonempty : file ≠ []) (accepted : ∀ flag ∈ flags, flag.IsAccepted Name.show.grammar)
    (settled : Flag.manner directory flags file = .ok manner)
    (performed : (manner.showing output file).perform directory = ⟨out, err, after, .ok ()⟩) :
    run directory (showLine output file flags) = .ok ⟨.exit 0, out, err, after⟩ := by
  apply run_of_resolve ((parse_showLine_eq_ok_iff outputPlain filePlain).mpr ⟨accepted, rfl⟩) ?_
    performed
  rw [resolve_showArguments _ fileNonempty, settled]
  rfl

/-- What a scan into a token file that ends well has read and written. -/
theorem written_of_run (filePlain : file.head? ≠ some '-') (outputPlain : output.head? ≠ some '-')
    (outputNonempty : output ≠ [])
    (scanned : run directory (scanLine file flags (some output)) = .ok outcome)
    (ended : outcome.ending = .exit 0) :
    (∀ flag ∈ flags, flag.IsAccepted Name.scan.grammar) ∧ file ≠ [] ∧ ∃ manner data tokens,
      Flag.manner directory flags file = .ok manner ∧
      directory.read (.ofText file) = .ok data ∧ tokenize data manner.encoding = .ok tokens ∧
      (∀ token ∈ tokens, token.IsPackable) ∧
      directory.write (.ofText output) (tokens.map Token.record).flatten =
        .ok outcome.directory := by
  rcases run_eq_ok_iff.mp scanned with ⟨arguments, parsed, rfl⟩
  rw [parse_scanLine_eq_ok_iff filePlain (by rintro _ ⟨⟩; exact outputPlain)] at parsed
  rcases parsed with ⟨accepted, rfl⟩
  rcases resolve_of_run ended with ⟨options, err, out, after, resolved, performed, ran⟩
  rw [resolve_scanArguments] at resolved
  rcases Except.map_eq_ok_iff.mp resolved with ⟨manner, settled, rfl⟩
  rcases manner.written_of_perform outputNonempty performed with
    ⟨fileNonempty, data, tokens, readFile, tokenized, packable, wrote⟩
  rw [ran]
  exact ⟨accepted, fileNonempty, manner, data, tokens, settled, readFile, tokenized, packable,
    wrote⟩

/-- The texts of tokens that were written are the words that they were made of. -/
theorem readings_of_manner {manner : Manner} {data : Bytes} {tokens : List Token}
    (decodable : ∃ encoding ∈ [Encoding.utf8, .ascii, .latin1, .cp1252],
      effectiveEncoding? directory (scanArguments file flags none) = some encoding)
    (settled : Flag.manner directory flags file = .ok manner)
    (tokenized : tokenize data manner.encoding = .ok tokens)
    (packable : ∀ token ∈ tokens, token.IsPackable) :
    Source.readings manner.encoding data tokens =
      ((scan data manner.encoding).items.map Prod.snd).map .ok := by
  rcases decodable with ⟨encoding, encodingMem, effective⟩
  have named := hasName_of_manner settled (ofName_of_effectiveEncoding? settled effective)
  have bytewise : encoding ∈ Encoding.bytewise := by
    revert encodingMem
    simp only [Encoding.bytewise, List.mem_cons]
    grind
  apply readings_of_tokenize named bytewise tokenized
  intro token tokenMem
  have offset_le := (packable token tokenMem).2
  simp only [Token.maxOffset, Source.maxIndex] at offset_le ⊢
  omega

/-- A choice that looks like the option for the source stops a command line that shows. -/
theorem run_showLine_of_mistakable (filePlain : file.head? ≠ some '-')
    (outputPlain : output.head? ≠ some '-') {flag : Flag} (flagMem : flag ∈ flags)
    (accepted : flag.IsAccepted Name.scan.grammar) (mistakable : flag.IsMistakable) :
    ∃ error, run directory (showLine output file flags) = .error error := by
  cases shown : run directory (showLine output file flags) with
  | error error => exact ⟨error, rfl⟩
  | ok result =>
      rcases run_eq_ok_iff.mp shown with ⟨arguments, parsed, _⟩
      have shownAccepted := ((parse_showLine_eq_ok_iff outputPlain filePlain).mp parsed).1
      exact absurd mistakable ((Flag.isAccepted_show_iff accepted).mp
        (shownAccepted flag flagMem))

/-- A token file is shown with the report of the scan that it was made by, unless the choices
hold a value that only the command for showing takes for one of its options. -/
theorem shown_as_scanned (filePlain : file.head? ≠ some '-') (outputPlain : output.head? ≠ some '-')
    (outputNonempty : output ≠ [])
    (apart : directory.locate (.ofText output) ≠ directory.locate (.ofText file))
    (configApart :
      directory.locate (.ofText output) ≠ directory.locate (Flag.configPath flags file))
    (decodable : ∃ encoding ∈ [Encoding.utf8, .ascii, .latin1, .cp1252],
      effectiveEncoding? directory (scanArguments file flags none) = some encoding)
    (scanned : run directory (scanLine file flags (some output)) = .ok outcome)
    (ended : outcome.ending = .exit 0) :
    ∃ report,
      run directory (scanLine file flags none) = .ok ⟨.exit 0, report, [], directory⟩ ∧
      run outcome.directory (scanLine file flags none) =
        .ok ⟨.exit 0, report, [], outcome.directory⟩ ∧
      ((∀ flag ∈ flags, ¬flag.IsMistakable) →
        run outcome.directory (showLine output file flags) =
          .ok ⟨.exit 0, report, [], outcome.directory⟩) ∧
      ((∃ flag ∈ flags, flag.IsMistakable) →
        ∃ error, run outcome.directory (showLine output file flags) = .error error) := by
  rcases written_of_run filePlain outputPlain outputNonempty scanned ended with
    ⟨accepted, fileNonempty, manner, data, tokens, settled, readFile, tokenized, packable, wrote⟩
  have readings := readings_of_manner decodable settled tokenized packable
  have settledAfter := (manner_of_write_elsewhere wrote configApart).trans settled
  have readFileAfter := (Directory.read_of_write_elsewhere wrote apart).mpr readFile
  have readOutput := Directory.read_of_write wrote
  refine ⟨manner.report tokens ((scan data manner.encoding).items.map Prod.snd), ?_, ?_, ?_, ?_⟩
  · exact run_scanLine filePlain (by simp) accepted settled
      (manner.perform_scanning_none fileNonempty readFile tokenized readings)
  · exact run_scanLine filePlain (by simp) accepted settledAfter
      (manner.perform_scanning_none fileNonempty readFileAfter tokenized readings)
  · intro unmistakable
    apply run_showLine outputPlain filePlain fileNonempty ?_ settledAfter
      (manner.perform_showing outputNonempty fileNonempty readOutput readFileAfter packable
        (offsets_of_tokenize tokenized).2 readings)
    intro flag flagMem
    exact (Flag.isAccepted_show_iff (accepted flag flagMem)).mpr (unmistakable flag flagMem)
  · rintro ⟨flag, flagMem, mistakable⟩
    exact run_showLine_of_mistakable filePlain outputPlain flagMem (accepted flag flagMem)
      mistakable

end

def sourceDirectory : Directory :=
  Directory.empty.add (.ofText "a.src".toList) (some [0x2b, 0x0a])

/-- The same directory once the token file of the source has been written. -/
def tokenDirectory : Directory :=
  sourceDirectory.put ⟨some 0, ["t".toList]⟩ (.file [0, 0, 0, 0, 13, 0, 0, 0, 1, 18])

theorem effectiveEncoding?_sourceDirectory {value : Text} (nonempty : value ≠ [])
    (present : value ≠ ['-', '-'])
    (missing : sourceDirectory.isFile (.ofText value) = .ok false) :
    effectiveEncoding? sourceDirectory
      (scanArguments "a.src".toList [.apart .config value] none) = some .utf8 := by
  rw [effectiveEncoding?, resolve_scanArguments,
    manner_of_missing_config nonempty present missing]
  simp only [Except.map, Manner.scanning, Encoding.hasName_utf8.2]
  rfl

theorem run_sourceDirectory {value : Text} (nonempty : value ≠ [])
    (present : value ≠ ['-', '-'])
    (told : Name.scan.grammar.item value = .ok (.argument value))
    (missing : sourceDirectory.isFile (.ofText value) = .ok false) :
    ∃ err, run sourceDirectory
      (scanLine "a.src".toList [.apart .config value] (some "t".toList)) =
        .ok ⟨.exit 0, [], err, tokenDirectory⟩ := by
  have accepted : (Flag.apart .config value).IsAccepted Name.scan.grammar :=
    ⟨⟨present, told⟩, Or.inr (Or.inl rfl)⟩
  have settled := manner_of_missing_config nonempty present missing "a.src".toList
  have tokenized : tokenize [0x2b, 0x0a] "utf-8".toList = .ok [⟨0, .plus⟩, ⟨1, .newline⟩] := by
    rfl
  have wrote : sourceDirectory.write (.ofText "t".toList)
      ([⟨0, .plus⟩, ⟨1, .newline⟩].map Token.record).flatten = .ok tokenDirectory := by
    rfl
  refine ⟨_, run_scanLine (by decide) (by decide) ?_ settled
    (Manner.perform_scanning_some (by decide) (by decide) rfl tokenized ?_ wrote)⟩
  · simpa using accepted
  · simp [Token.IsPackable, Token.maxOffset]

/-- A source that is scanned and shown with a configuration file that is not there. -/
theorem source_shown_as_scanned :
    effectiveEncoding? sourceDirectory
        (scanArguments "a.src".toList [.apart .config "c.toml".toList] none) = some .utf8 ∧
      (∃ err, run sourceDirectory
        (scanLine "a.src".toList [.apart .config "c.toml".toList] (some "t".toList)) =
          .ok ⟨.exit 0, [], err, tokenDirectory⟩) ∧
      ∃ report,
        run sourceDirectory (scanLine "a.src".toList [.apart .config "c.toml".toList] none) =
          .ok ⟨.exit 0, report, [], sourceDirectory⟩ ∧
        run tokenDirectory
          (showLine "t".toList "a.src".toList [.apart .config "c.toml".toList]) =
            .ok ⟨.exit 0, report, [], tokenDirectory⟩ := by
  have effective : effectiveEncoding? sourceDirectory
      (scanArguments "a.src".toList [.apart .config "c.toml".toList] none) = some .utf8 :=
    effectiveEncoding?_sourceDirectory (by decide) (by decide) rfl
  have written : ∃ err, run sourceDirectory
      (scanLine "a.src".toList [.apart .config "c.toml".toList] (some "t".toList)) =
        .ok ⟨.exit 0, [], err, tokenDirectory⟩ :=
    run_sourceDirectory (by decide) (by decide) rfl rfl
  rcases written with ⟨err, scanned⟩
  rcases shown_as_scanned (by decide) (by decide) (by decide) (by decide) (by decide)
    ⟨.utf8, by decide, effective⟩ scanned rfl with ⟨report, plain, _, shown, _⟩
  refine ⟨effective, ⟨err, scanned⟩, report, plain, shown ?_⟩
  intro flag flagMem
  rw [List.mem_singleton.mp flagMem]
  show ¬startsLikeSource "c.toml".toList = true
  decide

/-- A value that holds a blank and starts like the option for the source is refused only when
the token file is shown. -/
theorem refused_after_scan :
    effectiveEncoding? sourceDirectory
        (scanArguments "a.src".toList [.apart .config "-s x".toList] none) = some .utf8 ∧
      sourceDirectory.locate (.ofText "t".toList) ≠
        sourceDirectory.locate (.ofText "a.src".toList) ∧
      sourceDirectory.locate (.ofText "t".toList) ≠
        sourceDirectory.locate
          (Flag.configPath [.apart .config "-s x".toList] "a.src".toList) ∧
      (∃ err, run sourceDirectory
        (scanLine "a.src".toList [.apart .config "-s x".toList] (some "t".toList)) =
          .ok ⟨.exit 0, [], err, tokenDirectory⟩) ∧
      ∃ error, run tokenDirectory
        (showLine "t".toList "a.src".toList [.apart .config "-s x".toList]) = .error error := by
  refine ⟨?_, by decide, by decide, ?_, ?_⟩
  · exact effectiveEncoding?_sourceDirectory (by decide) (by decide) rfl
  · exact run_sourceDirectory (by decide) (by decide) rfl rfl
  · refine run_showLine_of_mistakable (by decide) (by decide) (List.mem_singleton_self _)
      ⟨⟨by decide, rfl⟩, Or.inr (Or.inl rfl)⟩ ?_
    show startsLikeSource "-s x".toList = true
    decide

end Lexeme.Command
