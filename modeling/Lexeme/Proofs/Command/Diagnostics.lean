import Lexeme.Proofs.Command.Debugging
import Lexeme.Proofs.Command.Effects
import Lexeme.Proofs.Command.ExitCode

/-!
# What a dump adds to a run

A run that dumps its tokens does what it would have done without the dump, as long as the dump
comes to its end. A dump that stops early ends the run. Mostly the run would have failed anyway,
but not always: a dump needs a record and a text of every token, and a report may do without.
-/

namespace Lexeme.Command

namespace Options

variable {options : Options} {directory : Directory} {tokens : List Token} {contents : Bytes}
variable {rest : Action Unit} {encoding : Encoding} {failure : CommandFailure}

/-- The tokens that a command dumps if that is asked for, the bytes that they belong to, and what is
left to do behind the dump. -/
inductive Dumps (options : Options) (directory : Directory) :
    List Token → Bytes → Action Unit → Prop
  | scanned {data : Bytes} {tokens : List Token} (scans : options.command = .scan)
      (found : options.findSource directory = .ok (data, tokens)) :
      Dumps options directory tokens data (options.finishScan data tokens)
  | shown {records : List Bytes} {tokens : List Token} {contents : Bytes}
      (shows : options.command = .show)
      (found : options.findTokens directory = .ok (records, tokens, contents)) :
      Dumps options directory tokens contents
        (options.finishShow records tokens (.ofBytes contents))

/-- Whether a dump would stop at a token that has no text or no record. -/
def StopsEarly (options : Options) (directory : Directory) : Prop :=
  ∃ tokens contents rest, options.Dumps directory tokens contents rest ∧
    ¬(Source.IsReadable options.encoding contents tokens ∧ ∀ token ∈ tokens, token.IsPackable)

/-- What only a dump minds: that a token of a very long source has no record, if none is to be
written; and that a token has no text in the source, if no texts are reported, or if the tokens are
out of order and are looked up with other texts. -/
inductive Overlooks (options : Options) (directory : Directory) : Prop
  | noRecord {data : Bytes} {tokens : List Token} {token : Token} (scans : options.command = .scan)
      (found : options.findSource directory = .ok (data, tokens)) (reports : options.output = none)
      (tokenMem : token ∈ tokens) (beyond : Token.maxOffset < token.offset)
  | noText {records : List Bytes} {tokens : List Token} {contents : Bytes} {rows : List Report.Row}
      (shows : options.command = .show)
      (found : options.findTokens directory = .ok (records, tokens, contents))
      (lookedUp : options.lookUpRows records (.ofBytes contents) tokens = .ok rows)
      (unasked : options.showText = false ∨ ¬tokens.Pairwise (·.offset < ·.offset))
      (unreadable : ¬Source.IsReadable options.encoding contents tokens)

theorem lookUpRows_debugging (records : List Bytes) (source : Source) :
    options.debugging.lookUpRows records source tokens =
      options.lookUpRows records source tokens := by
  induction tokens generalizing source with
  | nil => rfl
  | cons token tokens inductionHypothesis =>
      simp only [lookUpRows, inductionHypothesis]
      rfl

theorem finishShow_debugging (records : List Bytes) (source : Source) :
    options.debugging.finishShow records tokens source =
      options.finishShow records tokens source := by
  simp only [finishShow, lookUpRows_debugging]
  rfl

theorem Dumps.debugging (dumps : options.Dumps directory tokens contents rest) :
    options.debugging.Dumps directory tokens contents rest := by
  cases dumps with
  | scanned scans found => exact .scanned scans found
  | shown shows found =>
      rw [← finishShow_debugging]
      exact .shown shows found

theorem Opens.debugging {path : Path} (opens : options.Opens directory path) :
    options.debugging.Opens directory path := by
  cases opens with
  | scanned scans given => exact .scanned scans given
  | written scans found encoded chosen => exact .written scans found encoded chosen
  | shown shows given sourceGiven => exact .shown shows given sourceGiven
  | consulted shows given sourceGiven readInput decoded =>
      exact .consulted shows given sourceGiven readInput decoded

theorem perform_of_dumps (dumps : options.Dumps directory tokens contents rest) :
    options.perform directory =
      (options.dumpTexts tokens (.ofBytes contents) >>= fun _ => rest) directory := by
  rw [perform]
  cases dumps with
  | scanned scans found =>
      rw [scans]
      exact scanSource_of_found found
  | shown shows found =>
      rw [shows]
      have dumped := options.result_dumpTexts tokens (.ofBytes contents) directory
      refine (showTokens_of_found found).trans ?_
      split at dumped
      · rw [Action.bind_of_error dumped, Action.bind_of_error dumped]
      · rw [Action.bind_of_ok dumped, Action.bind_of_ok dumped]

theorem perform_of_plain_dumps (plain : options.debug = false)
    (dumps : options.Dumps directory tokens contents rest) :
    options.perform directory = rest directory := by
  rw [perform_of_dumps dumps]
  simp [Action.bind_of_ok, dumpTexts_of_plain plain]

/-- Where nothing is dumped but words, a dump has no effect on what is done. -/
theorem perform_debugging_of_undumped (plain : options.debug = false)
    (undumped : ∀ tokens contents rest, ¬options.Dumps directory tokens contents rest) :
    ∃ dump, options.debugging.perform directory =
      { options.perform directory with err := dump ++ (options.perform directory).err } := by
  cases asked : options.command with
  | scan =>
      cases looked : options.findSource directory with
      | ok found => exact absurd (.scanned asked looked) (undumped _ _ _)
      | error failure =>
          have failedAgain : options.debugging.perform directory =
              ⟨[], [], directory, .error failure⟩ :=
            perform_of_findSource_eq_error asked looked
          rw [failedAgain, perform_of_findSource_eq_error asked looked]
          exact ⟨[], rfl⟩
  | «show» =>
      cases looked : options.findTokens directory with
      | ok found => exact absurd (.shown asked looked) (undumped _ _ _)
      | error failure =>
          have failedAgain : options.debugging.perform directory =
              ⟨[], [], directory, .error failure⟩ :=
            perform_of_findTokens_eq_error asked looked
          rw [failedAgain, perform_of_findTokens_eq_error asked looked]
          exact ⟨[], rfl⟩
  | classify =>
      have perform_eq (chosen : Options) (classifies : chosen.command = .classify) :
          chosen.perform = chosen.classifyWords := by
        rw [perform, classifies]
      have nothing : (options.dumpWords directory).err = [] := by
        rw [dumpWords, plain]
        rfl
      rw [perform_eq options asked, perform_eq options.debugging asked, classifyWords,
        classifyWords, options.isQuiet_dumpWords.bind_of_ok (options.result_dumpWords directory),
        options.debugging.isQuiet_dumpWords.bind_of_ok
          (options.debugging.result_dumpWords directory),
        nothing]
      exact ⟨_, rfl⟩

/-- A dump that comes to its end is all that it adds. -/
theorem perform_debugging (plain : options.debug = false)
    (complete : ¬options.StopsEarly directory) :
    ∃ dump, options.debugging.perform directory =
      { options.perform directory with err := dump ++ (options.perform directory).err } := by
  by_cases dumped : ∃ tokens contents rest, options.Dumps directory tokens contents rest
  · rcases dumped with ⟨tokens, contents, rest, dumps⟩
    have readable : Source.IsReadable options.encoding contents tokens ∧
        ∀ token ∈ tokens, token.IsPackable := by
      by_contra unreadable
      exact complete ⟨tokens, contents, rest, dumps, unreadable⟩
    have unstopped : options.debugging.dumpFailure? tokens (.ofBytes contents) = none :=
      Dump.failure_rowsWithTexts_eq_none_iff.mpr readable
    have done := options.debugging.result_dumpTexts tokens (.ofBytes contents) directory
    rw [unstopped] at done
    rw [perform_of_dumps dumps.debugging, perform_of_plain_dumps plain dumps,
      (options.debugging.isQuiet_dumpTexts (.ofBytes contents)).bind_of_ok done]
    exact ⟨_, rfl⟩
  · apply perform_debugging_of_undumped plain
    intro tokens contents rest dumps
    exact dumped ⟨tokens, contents, rest, dumps⟩

/-- A dump that stops early ends the command with what stopped it. -/
theorem failed_of_stopsEarly (stops : options.StopsEarly directory) :
    ∃ reason, (options.debugging.perform directory).result = .error (.failure reason) := by
  rcases stops with ⟨tokens, contents, rest, dumps, unreadable⟩
  have failed := options.debugging.result_dumpTexts tokens (.ofBytes contents) directory
  rw [perform_of_dumps dumps.debugging]
  cases stopped : options.debugging.dumpFailure? tokens (.ofBytes contents) with
  | none => exact absurd (Dump.failure_rowsWithTexts_eq_none_iff.mp stopped) unreadable
  | some reason =>
      rw [stopped] at failed
      exact ⟨reason, by rw [Action.bind_of_error failed]⟩

theorem stopsEarly_of_overlooks (overlooks : options.Overlooks directory) :
    options.StopsEarly directory := by
  cases overlooks with
  | noRecord scans found reports tokenMem beyond =>
      refine ⟨_, _, _, .scanned scans found, ?_⟩
      rintro ⟨_, packable⟩
      have := (packable _ tokenMem).2
      omega
  | noText shows found lookedUp unasked unreadable =>
      exact ⟨_, _, _, .shown shows found, fun readable => unreadable readable.1⟩

section

variable (named : encoding.HasName options.encoding)
  (addressable : ∀ path data, directory.read path = .ok data →
    (data.length : Int) ≤ Source.maxIndex)
include named addressable

/-- The data is to blame for a dump that stops early. -/
theorem blamed_of_stopsEarly (stops : options.StopsEarly directory) :
    ∃ failure, (options.debugging.perform directory).result = .error failure ∧
      failure.IsBlamed := by
  rcases failed_of_stopsEarly stops with ⟨reason, failed⟩
  have namedAgain : encoding.HasName options.debugging.encoding := named
  refine ⟨_, failed, ?_⟩
  cases explains_of_perform namedAgain addressable failed with
  | blamed blamed => exact blamed

/-- A command whose dump would stop early fails, if it does, because of the data or a file. -/
theorem isBlamed_of_stopsEarly (bytewise : encoding ∈ Encoding.bytewise)
    (stops : options.StopsEarly directory)
    (failed : (options.perform directory).result = .error failure) : failure.IsBlamed := by
  rcases failed_of_stopsEarly stops with ⟨reason, stopped⟩
  have namedAgain : encoding.HasName options.debugging.encoding := named
  -- Any other failure would come about with the dump as well, which stops for its own reason.
  cases explains_of_perform named addressable failed with
  | noInput lacks =>
      have lacking : options.debugging.LacksInput := lacks
      rw [failed_of_lacksInput lacking] at stopped
      cases stopped
  | holdsNul opens holdsNul =>
      rw [failed_of_holdsNul namedAgain bytewise opens.debugging holdsNul] at stopped
      cases stopped
  | blamed blamed => exact blamed

theorem isReadable_of_findSource (bytewise : encoding ∈ Encoding.bytewise) {data : Bytes}
    (found : options.findSource directory = .ok (data, tokens)) :
    Source.IsReadable options.encoding data tokens := by
  have inside := isAddressable_of_findSource addressable found
  rcases findSource_eq_ok_iff.mp found with ⟨_, _, _, tokenized⟩
  refine ⟨_, readings_of_tokenize named bytewise tokenized ?_⟩
  intro token tokenMem
  exact (inside token tokenMem).2

/-- Where a command succeeds although its dump would stop early, it is for one of two reasons. -/
theorem overlooks_of_stopsEarly (bytewise : encoding ∈ Encoding.bytewise)
    (plain : options.debug = false) (stops : options.StopsEarly directory)
    (done : (options.perform directory).result = .ok ()) : options.Overlooks directory := by
  rcases stops with ⟨tokens, contents, rest, dumps, unreadable⟩
  rw [perform_of_plain_dumps plain dumps] at done
  cases dumps with
  | scanned scans found =>
      have readable := isReadable_of_findSource named addressable bytewise found
      cases chosen : options.output with
      | some output =>
          -- What has been written has a record of every token.
          rcases written_of_finishScan chosen done with ⟨_, encoded, _⟩
          exact absurd ⟨readable, (TokenFile.encode_eq_ok_iff.mp encoded).1⟩ unreadable
      | none =>
          have unpackable : ¬∀ token ∈ tokens, token.IsPackable :=
            fun packable => unreadable ⟨readable, packable⟩
          push Not at unpackable
          rcases unpackable with ⟨token, tokenMem, unpackable⟩
          have inside := isAddressable_of_findSource addressable found token tokenMem
          refine .noRecord scans found chosen tokenMem ?_
          rw [Token.IsPackable] at unpackable
          have := inside.1
          omega
  | shown shows found =>
      rcases Action.result_bind_eq_ok_iff.mp done with ⟨rows, settled, _⟩
      have lookedUp := Except.mapError_eq_ok_iff.mp settled
      rcases findTokens_eq_ok_iff.mp found with ⟨_, _, _, _, _, _, packable, rfl⟩
      have noTexts : ¬Source.IsReadable options.encoding contents tokens :=
        fun readable => unreadable ⟨readable, packable⟩
      refine .noText shows found lookedUp ?_ noTexts
      by_contra asked
      rw [not_or, not_not, Bool.not_eq_false] at asked
      exact noTexts (isReadable_of_lookUpRows asked.1 [] asked.2 packable lookedUp)

theorem done_of_overlooks (bytewise : encoding ∈ Encoding.bytewise)
    (plain : options.debug = false) (overlooks : options.Overlooks directory) :
    (options.perform directory).result = .ok () := by
  cases overlooks with
  | noRecord scans found reports tokenMem beyond =>
      rcases isReadable_of_findSource named addressable bytewise found with ⟨texts, read⟩
      rw [perform_of_plain_dumps plain (.scanned scans found),
        finishScan_of_drawn reports (Source.texts_of_readings read)]
  | noText shows found lookedUp unasked unreadable =>
      rw [perform_of_plain_dumps plain (.shown shows found), finishShow_of_rows lookedUp]

end

/-- A command that does the same but for the error stream ends the same. -/
theorem run_debugging {dump : Text}
    (same : options.debugging.perform directory =
      { options.perform directory with err := dump ++ (options.perform directory).err }) :
    options.debugging.run directory =
      { options.run directory with err := dump ++ (options.run directory).err } := by
  simp only [run, same]
  cases (options.perform directory).result with
  | ok done => rfl
  | error failure =>
      have told : options.debugging.conclude failure = options.conclude failure := rfl
      simp only [told, List.append_assoc]

end Options

variable {directory : Directory} {arguments : Arguments} {options : Options}

/-- Whether a run finds what it is to dump, and the dump would stop early. -/
def Arguments.StopsDump (arguments : Arguments) (directory : Directory) : Prop :=
  ∃ options, Options.resolve directory arguments = .ok options ∧ options.StopsEarly directory

/-- Whether a run succeeds without a dump that would stop early. -/
def Arguments.Overlooks (arguments : Arguments) (directory : Directory) : Prop :=
  ∃ options, Options.resolve directory arguments = .ok options ∧ options.Overlooks directory

theorem debug_of_resolve (plain : arguments.isRaised .debug = false)
    (resolved : Options.resolve directory arguments = .ok options) : options.debug = false := by
  rw [(fields_of_resolve resolved).2.2.2, plain]

theorem resolve_debugging_of_resolve
    (resolved : Options.resolve directory arguments = .ok options) :
    Options.resolve directory arguments.debugging = .ok options.debugging := by
  rw [resolve_debugging, resolved]
  rfl

/-- A run with a dump that comes to its end, or with none, only has more on its error stream. -/
theorem run_debugging (plain : arguments.isRaised .debug = false)
    (complete : ¬arguments.StopsDump directory) :
    ∃ dump, arguments.debugging.run directory =
      { arguments.run directory with err := dump ++ (arguments.run directory).err } := by
  cases resolved : Options.resolve directory arguments with
  | error problem =>
      refine ⟨[], ?_⟩
      have unresolved : Options.resolve directory arguments.debugging = .error problem := by
        rw [resolve_debugging, resolved]
        rfl
      simp only [Arguments.run, unresolved, resolved, List.nil_append]
  | ok options =>
      have goesOn : ¬options.StopsEarly directory :=
        fun stops => complete ⟨options, resolved, stops⟩
      rcases Options.perform_debugging (debug_of_resolve plain resolved) goesOn with ⟨dump, same⟩
      simp only [Arguments.run, resolved, resolve_debugging_of_resolve resolved]
      exact ⟨dump, Options.run_debugging same⟩

/-- A run whose dump stops early fails and does nothing. -/
theorem untouched_of_stopsDump (stops : arguments.StopsDump directory) :
    (arguments.debugging.run directory).ending ≠ .exit 0 ∧
      (arguments.debugging.run directory).out = [] ∧
      (arguments.debugging.run directory).directory = directory := by
  rcases stops with ⟨options, resolved, stops⟩
  rcases Options.failed_of_stopsEarly stops with ⟨reason, failed⟩
  have ended := ending_of_failed (resolve_debugging_of_resolve resolved) failed
  have notWell : (arguments.debugging.run directory).ending ≠ .exit 0 := by
    rw [ended]
    exact options.debugging.conclude_ne_exit_zero _
  exact ⟨notWell, untouched_of_run notWell⟩

section

variable (addressable : ∀ path data, directory.read path = .ok data →
    (data.length : Int) ≤ Source.maxIndex)
  (decodable : ∀ options, Options.resolve directory arguments = .ok options →
    ∃ encoding, Encoding.ofName options.encoding = .ok encoding)
include addressable decodable

theorem ending_of_stopsDump (stops : arguments.StopsDump directory) :
    (arguments.debugging.run directory).ending = .exit 1 := by
  rcases stops with ⟨options, resolved, stops⟩
  rcases decodable options resolved with ⟨encoding, known⟩
  rcases Options.blamed_of_stopsEarly (hasName_of_resolve resolved known) addressable stops with
    ⟨failure, failed, blamed⟩
  exact ending_of_blamed (resolve_debugging_of_resolve resolved) failed blamed

/-- Where the dump would stop early, a run without it fails too or overlooks why. -/
theorem ending_or_overlooks_of_stopsDump (plain : arguments.isRaised .debug = false)
    (stops : arguments.StopsDump directory) :
    (arguments.run directory).ending = .exit 1 ∨ arguments.Overlooks directory := by
  rcases stops with ⟨options, resolved, stops⟩
  rcases decodable options resolved with ⟨encoding, known⟩
  have named := hasName_of_resolve resolved known
  have bytewise := bytewise_of_resolve resolved known
  cases performed : (options.perform directory).result with
  | ok done =>
      exact Or.inr ⟨options, resolved, Options.overlooks_of_stopsEarly named addressable bytewise
        (debug_of_resolve plain resolved) stops performed⟩
  | error failure =>
      exact Or.inl (ending_of_blamed resolved performed
        (Options.isBlamed_of_stopsEarly named addressable bytewise stops performed))

theorem ending_of_overlooks (plain : arguments.isRaised .debug = false)
    (overlooks : arguments.Overlooks directory) :
    (arguments.run directory).ending = .exit 0 := by
  rcases overlooks with ⟨options, resolved, overlooks⟩
  rcases decodable options resolved with ⟨encoding, known⟩
  have done := Options.done_of_overlooks (hasName_of_resolve resolved known) addressable
    (bytewise_of_resolve resolved known) (debug_of_resolve plain resolved) overlooks
  rw [Arguments.run, resolved]
  simp only [Options.run, done]

end

/-- Asking for a dump behind the word for the command adds something to the error stream and
changes nothing else, as long as the dump comes to its end. A dump that stops early ends the run
with code 1, and nothing is done. A run without the dump fails as well then, unless it overlooks
what the dump stopped at. -/
theorem debugging_adds_diagnostics {line : List Text} {outcome : Outcome}
    (ran : run directory line = .ok outcome)
    (plain : ∀ arguments, Arguments.parse line = .ok arguments →
      arguments.isRaised .debug = false)
    (addressable : ∀ path data, directory.read path = .ok data →
      (data.length : Int) ≤ Source.maxIndex) :
    ∃ arguments tail debugged, Arguments.parse line = .ok arguments ∧
      line = arguments.command.word.toList :: tail ∧
      run directory (arguments.command.word.toList :: "--debug".toList :: tail) = .ok debugged ∧
      (¬arguments.StopsDump directory →
        ∃ dump, debugged = { outcome with err := dump ++ outcome.err }) ∧
      (arguments.StopsDump directory →
        debugged.ending ≠ .exit 0 ∧ debugged.out = [] ∧ debugged.directory = directory) ∧
      ((∀ options, Options.resolve directory arguments = .ok options →
          ∃ encoding, Encoding.ofName options.encoding = .ok encoding) →
        (¬arguments.Overlooks directory → debugged.ending = outcome.ending ∧
          debugged.out = outcome.out ∧ debugged.directory = outcome.directory) ∧
        (arguments.Overlooks directory →
          outcome.ending = .exit 0 ∧ debugged.ending = .exit 1 ∧ debugged.out = [] ∧
            debugged.directory = directory)) := by
  rcases run_eq_ok_iff.mp ran with ⟨arguments, parsed, rfl⟩
  have plain := plain arguments parsed
  rcases parse_debugging parsed with ⟨tail, split, parsedAgain⟩
  refine ⟨arguments, tail, _, parsed, split, run_eq_ok_iff.mpr ⟨_, parsedAgain, rfl⟩,
    run_debugging plain, untouched_of_stopsDump, ?_⟩
  intro decodable
  constructor
  · intro notices
    by_cases stops : arguments.StopsDump directory
    · have ended := ending_of_stopsDump addressable decodable stops
      rcases ending_or_overlooks_of_stopsDump addressable decodable plain stops with
        endedPlain | overlooks
      · have untouched := untouched_of_stopsDump stops
        have failedPlain : (arguments.run directory).ending ≠ .exit 0 := by
          rw [endedPlain]
          simp
        have untouchedPlain := untouched_of_run failedPlain
        rw [ended, endedPlain, untouched.2.1, untouched.2.2, untouchedPlain.1, untouchedPlain.2]
        exact ⟨rfl, rfl, rfl⟩
      · exact absurd overlooks notices
    · rcases run_debugging plain stops with ⟨dump, same⟩
      rw [same]
      exact ⟨rfl, rfl, rfl⟩
  · intro overlooks
    have stops : arguments.StopsDump directory := by
      rcases overlooks with ⟨options, resolved, overlooks⟩
      exact ⟨options, resolved, Options.stopsEarly_of_overlooks overlooks⟩
    exact ⟨ending_of_overlooks addressable decodable plain overlooks,
      ending_of_stopsDump addressable decodable stops, (untouched_of_stopsDump stops).2⟩

/-- A source all of whose tokens are dumped. -/
theorem debugging_adds_dump_of_source : ∃ arguments tail outcome debugged dump,
    run sourceDirectory (scanLine "a.src".toList [.apart .config "c.toml".toList] none) =
        .ok outcome ∧
      Arguments.parse (scanLine "a.src".toList [.apart .config "c.toml".toList] none) =
        .ok arguments ∧
      arguments.isRaised .debug = false ∧
      run sourceDirectory (arguments.command.word.toList :: "--debug".toList :: tail) =
        .ok debugged ∧
      outcome.ending = .exit 0 ∧ debugged = { outcome with err := dump ++ outcome.err } := by
  have accepted : (Flag.apart .config "c.toml".toList).IsAccepted Name.scan.grammar :=
    ⟨⟨by decide, rfl⟩, Or.inr (Or.inl rfl)⟩
  have parsed : Arguments.parse
      (scanLine "a.src".toList [.apart .config "c.toml".toList] none) =
        .ok (scanArguments "a.src".toList [.apart .config "c.toml".toList] none) :=
    (parse_scanLine_eq_ok_iff (by decide) (by simp)).mpr ⟨by simpa using accepted, rfl⟩
  have plain : ∀ arguments,
      Arguments.parse (scanLine "a.src".toList [.apart .config "c.toml".toList] none) =
        .ok arguments → arguments.isRaised .debug = false := by
    intro arguments parsedAgain
    rw [parsed] at parsedAgain
    cases parsedAgain
    rfl
  have addressable : ∀ path data, sourceDirectory.read path = .ok data →
      (data.length : Int) ≤ Source.maxIndex := by
    intro path data read
    rcases Directory.mem_entries_of_read read with ⟨place, entryMem⟩
    cases List.mem_singleton.mp entryMem
    decide
  have settled : Flag.manner sourceDirectory [.apart .config "c.toml".toList] "a.src".toList =
      .ok ⟨"utf-8".toList, some .table, true⟩ :=
    manner_of_missing_config (by decide) (by decide) rfl _
  have tokenized : tokenize [0x2b, 0x0a] "utf-8".toList = .ok [⟨0, .plus⟩, ⟨1, .newline⟩] := by
    rfl
  have readings := readings_of_tokenize Encoding.hasName_utf8 (by decide) tokenized (by decide)
  have ran := run_scanLine (by decide) (by simp) (by simpa using accepted) settled
    (Manner.perform_scanning_none (by decide) rfl tokenized readings)
  rcases debugging_adds_diagnostics ran plain addressable with
    ⟨arguments, tail, debugged, parsedAgain, _, ranAgain, adds, _, _⟩
  rw [parsed] at parsedAgain
  cases parsedAgain
  have complete : ¬(scanArguments "a.src".toList [.apart .config "c.toml".toList] none).StopsDump
      sourceDirectory := by
    rintro ⟨options, resolved, tokens, contents, rest, dumps, unreadable⟩
    rw [resolve_scanArguments, settled] at resolved
    cases resolved
    cases dumps with
    | scanned scans found =>
        rw [Manner.findSource_scanning none (by decide) rfl tokenized] at found
        cases found
        exact unreadable ⟨⟨_, readings⟩, by simp [Token.IsPackable, Token.maxOffset]⟩
    | shown shows _ => cases shows
  rcases adds complete with ⟨dump, same⟩
  exact ⟨_, tail, _, debugged, dump, ran, parsed, rfl, ranAgain, rfl, same⟩

/-- A token file and a source that it was not made from. -/
def mismatchedDirectory : Directory :=
  tokenDirectory.add (.ofText "b.src".toList) (some [])

/-- A report without texts does not need the source, and a dump does. -/
theorem dump_fails_beside_report : ∃ arguments tail outcome debugged,
    showLine "t".toList "b.src".toList [.noText] = Name.show.word.toList :: tail ∧
      Arguments.parse (Name.show.word.toList :: tail) = .ok arguments ∧
      arguments.isRaised .debug = false ∧
      run mismatchedDirectory (Name.show.word.toList :: tail) = .ok outcome ∧
      run mismatchedDirectory (Name.show.word.toList :: "--debug".toList :: tail) = .ok debugged ∧
      outcome.ending = .exit 0 ∧ outcome.out = "0\tPLUS\n1\tNEWLINE\n".toList ∧
      debugged.ending = .exit 1 ∧ debugged.out = [] := by
  have parsed : Arguments.parse (showLine "t".toList "b.src".toList [.noText]) =
      .ok (showArguments "t".toList "b.src".toList [.noText]) :=
    (parse_showLine_eq_ok_iff (by decide) (by decide)).mpr ⟨by simp [Flag.IsAccepted], rfl⟩
  have loaded : loadConfig mismatchedDirectory (Flag.configPath [.noText] "b.src".toList) =
      .ok [] := by
    rfl
  have resolved : Options.resolve mismatchedDirectory
      (showArguments "t".toList "b.src".toList [.noText]) =
        .ok (Manner.showing ⟨"utf-8".toList, some .table, false⟩ "t".toList "b.src".toList) := by
    have settled : Flag.settle [.noText] [] = .ok ⟨"utf-8".toList, some .table, false⟩ :=
      settle_of_unset rfl rfl
    have manner := Except.bind_eq_ok_iff.mpr ⟨[], loaded, settled⟩
    rw [resolve_showArguments _ (by decide), Flag.manner, manner]
    rfl
  rcases parse_debugging parsed with ⟨tail, split, parsedAgain⟩
  rw [split] at parsed
  refine ⟨_, tail, _, _, split, parsed, rfl, run_eq_ok_iff.mpr ⟨_, parsed, rfl⟩,
    run_eq_ok_iff.mpr ⟨_, parsedAgain, rfl⟩, ?_⟩
  rw [Arguments.run, Arguments.run, resolved, resolve_debugging_of_resolve resolved]
  exact ⟨rfl, by decide +kernel, rfl, rfl⟩

end Lexeme.Command
