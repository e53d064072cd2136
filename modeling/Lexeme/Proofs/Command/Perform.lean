import Lexeme.Command.Run
import Lexeme.Proofs.Command.Action
import Lexeme.Proofs.Packed.File

/-!
# What commands find and do

A command first finds out what it is to work on. What is left to do can fail until it writes its
report or its file, which is the last thing that it does, so a command that fails has written
neither.
-/

namespace Lexeme.Command.Options

variable {options : Options} {directory after : Directory} {data contents : Bytes}
variable {records : List Bytes} {tokens : List Token}

theorem findSource_eq_ok_iff :
    options.findSource directory = .ok (data, tokens) ↔
      ∃ input, options.input = some input ∧ directory.read input = .ok data ∧
        tokenize data options.encoding = .ok tokens := by
  simp only [findSource, Except.bind_eq_ok_iff, Except.mapError_eq_ok_iff]
  simp only [pure, Except.pure, Except.ok.injEq, Prod.mk.injEq]
  cases options.input with
  | none => simp
  | some input => simp +contextual

theorem findTokens_eq_ok_iff :
    options.findTokens directory = .ok (records, tokens, contents) ↔
      ∃ input source, options.input = some input ∧ options.source = some source ∧
        directory.read input = .ok (tokens.map Token.record).flatten ∧
        directory.read source = .ok contents ∧
        (∀ token ∈ tokens, token.IsPackable) ∧ records = tokens.map Token.record := by
  simp only [findTokens, Except.bind_eq_ok_iff, Except.mapError_eq_ok_iff,
    Token.mapM_unpack_eq_ok_iff]
  simp only [pure, Except.pure, Except.ok.injEq, Prod.mk.injEq]
  cases options.input with
  | none => simp
  | some input =>
      cases options.source with
      | none => simp
      | some source =>
          simp only [Option.elim_some, Except.ok.injEq, exists_eq_left', Option.some.injEq]
          constructor
          · rintro ⟨data, readInput, records, cut, tokens, ⟨packable, rfl⟩, contents, readSource,
              rfl, rfl, rfl⟩
            rw [(TokenFile.records_eq_ok_iff.mp cut).1] at readInput
            exact ⟨input, source, rfl, rfl, readInput, readSource, packable, rfl⟩
          · rintro ⟨_, _, rfl, rfl, readInput, readSource, packable, rfl⟩
            exact ⟨_, readInput, _, TokenFile.records_flatten_record tokens, _, ⟨packable, rfl⟩, _,
              readSource, rfl, rfl, rfl⟩

theorem dumpTexts_of_plain {source : Source} (plain : options.debug = false) :
    options.dumpTexts tokens source directory = ⟨[], [], directory, .ok source⟩ := by
  simp only [dumpTexts, plain, Bool.false_eq_true, if_false]
  rfl

section

variable {output : Path}

theorem finishScan_of_written (chosen : options.output = some output)
    (encoded : TokenFile.encode tokens = .ok contents)
    (wrote : directory.write output contents = .ok after) :
    options.finishScan data tokens directory =
      ⟨[], line ("Wrote " ++ Numeral.integerString tokens.length ++ " tokens to " ++
        String.ofList output.text), after, .ok ()⟩ := by
  simp only [finishScan, chosen]
  rw [Action.settle_bind_of_ok encoded]
  simp [Action.bind_of_ok, Action.write, wrote, Action.note]

/-- A scan into a token file is done once the file is written, and prints nothing. -/
theorem written_of_finishScan (chosen : options.output = some output)
    (done : (options.finishScan data tokens directory).result = .ok ()) :
    ∃ contents, TokenFile.encode tokens = .ok contents ∧
      directory.write output contents =
        .ok (options.finishScan data tokens directory).directory ∧
      (options.finishScan data tokens directory).out = [] := by
  have atFirst := done
  simp only [finishScan, chosen] at atFirst
  rcases Action.result_bind_eq_ok_iff.mp atFirst with ⟨contents, settled, written⟩
  rcases Action.result_bind_eq_ok_iff.mp written with ⟨_, wrote, _⟩
  have encoded : TokenFile.encode tokens = .ok contents :=
    Except.mapError_eq_ok_iff.mp settled
  cases opened : directory.write output contents with
  | error failure => simp [Action.write, Action.settle, Action.consult, opened] at wrote
  | ok after =>
      rw [finishScan_of_written chosen encoded opened]
      exact ⟨contents, encoded, opened, rfl⟩

theorem finishScan_of_drawn {items : List (Token × Text)} (reports : options.output = none)
    {source : Source}
    (drawn : (Source.ofBytes data).texts options.encoding tokens = (⟨items, none⟩, source)) :
    options.finishScan data tokens directory =
      ⟨options.report (items.map fun item => ⟨item.1, some item.2⟩), [], directory, .ok ()⟩ := by
  have complete : ((Source.ofBytes data).texts options.encoding tokens).1.complete = .ok items := by
    rw [drawn]
    rfl
  simp only [finishScan, reports]
  rw [Action.settle_bind_of_ok complete]
  rfl

end

theorem finishShow_of_rows {source : Source} {rows : List Report.Row}
    (lookedUp : options.lookUpRows records source tokens = .ok rows) :
    options.finishShow records tokens source directory =
      ⟨options.report rows, [], directory, .ok ()⟩ := by
  simp only [finishShow]
  rw [Action.settle_bind_of_ok lookedUp]
  rfl

theorem found_of_scanSource (done : (options.scanSource directory).result = .ok ()) :
    ∃ data tokens, options.findSource directory = .ok (data, tokens) := by
  rcases Action.result_bind_eq_ok_iff.mp done with ⟨found, looked, _⟩
  exact ⟨found.1, found.2, looked⟩

theorem scanSource_of_found (found : options.findSource directory = .ok (data, tokens)) :
    options.scanSource directory =
      (options.dumpTexts tokens (.ofBytes data) >>= fun _ => options.finishScan data tokens)
        directory := by
  rw [scanSource, Action.consult_bind_of_ok found]

theorem showTokens_of_found
    (found : options.findTokens directory = .ok (records, tokens, contents)) :
    options.showTokens directory =
      (options.dumpTexts tokens (.ofBytes contents) >>= options.finishShow records tokens)
        directory := by
  rw [showTokens, Action.consult_bind_of_ok found]

/-- A command that does not find what it is to work on does nothing. -/
theorem perform_of_findSource_eq_error {failure : CommandFailure} (scans : options.command = .scan)
    (failed : options.findSource directory = .error failure) :
    options.perform directory = ⟨[], [], directory, .error failure⟩ := by
  rw [perform, scans]
  exact Action.consult_bind_of_error failed

theorem perform_of_findTokens_eq_error {failure : CommandFailure} (shows : options.command = .show)
    (failed : options.findTokens directory = .error failure) :
    options.perform directory = ⟨[], [], directory, .error failure⟩ := by
  rw [perform, shows]
  exact Action.consult_bind_of_error failed

/-- Without a dump nothing lies between what is found and what is left to do. -/
theorem scanSource_of_plain (plain : options.debug = false)
    (found : options.findSource directory = .ok (data, tokens)) :
    options.scanSource directory = options.finishScan data tokens directory := by
  rw [scanSource_of_found found]
  simp [Action.bind_of_ok, dumpTexts_of_plain plain]

theorem showTokens_of_plain (plain : options.debug = false)
    (found : options.findTokens directory = .ok (records, tokens, contents)) :
    options.showTokens directory =
      options.finishShow records tokens (.ofBytes contents) directory := by
  rw [showTokens_of_found found]
  simp [Action.bind_of_ok, dumpTexts_of_plain plain]

theorem isQuiet_dumpTexts (source : Source) : (options.dumpTexts tokens source).IsQuiet := by
  simp only [dumpTexts]
  split
  · apply Action.IsQuiet.bind (Action.isQuiet_dump _)
    intro _
    exact Action.isQuiet_pure _
  · exact Action.isQuiet_pure _

theorem isQuiet_dumpWords : options.dumpWords.IsQuiet := by
  simp only [dumpWords]
  split
  · exact Action.isQuiet_dump _
  · exact Action.isQuiet_pure _

theorem isAllOrNothing_finishScan : (options.finishScan data tokens).IsAllOrNothing := by
  simp only [finishScan]
  split
  · apply Action.IsQuiet.bind_isAllOrNothing (Action.isQuiet_settle _)
    intro contents
    apply Action.IsAllOrNothing.bind (Action.isAllOrNothing_write _ contents)
    intro _ directory
    exact ⟨(), rfl⟩
  · apply Action.IsQuiet.bind_isAllOrNothing (Action.isQuiet_settle _)
    intro items
    exact Action.isAllOrNothing_print _

theorem isAllOrNothing_finishShow (source : Source) :
    (options.finishShow records tokens source).IsAllOrNothing := by
  apply Action.IsQuiet.bind_isAllOrNothing (Action.isQuiet_settle _)
  intro rows
  exact Action.isAllOrNothing_print _

/-- What a scan into a token file has done, with or without a dump on the way. -/
theorem written_of_scanSource {output : Path} (chosen : options.output = some output)
    (done : (options.scanSource directory).result = .ok ()) :
    (options.scanSource directory).out = [] ∧ ∃ data tokens contents,
      options.findSource directory = .ok (data, tokens) ∧
      TokenFile.encode tokens = .ok contents ∧
      directory.write output contents = .ok (options.scanSource directory).directory := by
  rcases found_of_scanSource done with ⟨data, tokens, found⟩
  rw [scanSource_of_found found] at done ⊢
  rcases (isQuiet_dumpTexts (.ofBytes data)).exists_of_bind_ok done with
    ⟨_, finished, sameOut, sameDirectory⟩
  rcases written_of_finishScan chosen finished with ⟨contents, encoded, wrote, nothing⟩
  rw [sameOut, sameDirectory]
  exact ⟨nothing, data, tokens, contents, found, encoded, wrote⟩

theorem keepsFiles_finishScan (reports : options.output = none) :
    (options.finishScan data tokens).KeepsFiles := by
  simp only [finishScan, reports]
  apply (Action.isQuiet_settle _).keepsFiles.bind
  intro items
  exact Action.keepsFiles_print _

theorem keepsFiles_finishShow (source : Source) :
    (options.finishShow records tokens source).KeepsFiles := by
  apply (Action.isQuiet_settle _).keepsFiles.bind
  intro rows
  exact Action.keepsFiles_print _

/-- A command that is not a scan into a token file changes no file. -/
theorem keepsFiles_perform (options : Options)
    (reports : options.command = .scan → options.output = none) :
    options.perform.KeepsFiles := by
  simp only [perform]
  split
  · next scans =>
      apply (Action.isQuiet_consult _).keepsFiles.bind
      intro found
      apply (options.isQuiet_dumpTexts _).keepsFiles.bind
      intro _
      exact keepsFiles_finishScan (reports scans)
  · apply (Action.isQuiet_consult _).keepsFiles.bind
    intro found
    apply (options.isQuiet_dumpTexts _).keepsFiles.bind
    intro source
    exact keepsFiles_finishShow source
  · apply options.isQuiet_dumpWords.keepsFiles.bind
    intro _
    exact Action.keepsFiles_print _

/-- A command that fails has printed nothing and has left all files as they were. -/
theorem isAllOrNothing_perform (options : Options) : options.perform.IsAllOrNothing := by
  simp only [perform]
  split
  · apply Action.IsQuiet.bind_isAllOrNothing (Action.isQuiet_consult _)
    intro found
    apply Action.IsQuiet.bind_isAllOrNothing (options.isQuiet_dumpTexts _)
    intro _
    exact isAllOrNothing_finishScan
  · apply Action.IsQuiet.bind_isAllOrNothing (Action.isQuiet_consult _)
    intro found
    apply Action.IsQuiet.bind_isAllOrNothing (options.isQuiet_dumpTexts _)
    intro source
    exact isAllOrNothing_finishShow source
  · apply Action.IsQuiet.bind_isAllOrNothing options.isQuiet_dumpWords
    intro _
    exact Action.isAllOrNothing_print _

end Lexeme.Command.Options
