import Lexeme.Proofs.Command.Run
import Lexeme.Proofs.Directory
import Lexeme.Proofs.Locate.Failure
import Lexeme.Proofs.Locate.Handle
import Lexeme.Proofs.Word.Recovery

/-!
# How commands fail

A command whose encoding can be decoded with fails in three ways: it was given no input, a path
that it opens holds a zero character, or the data or a file is at fault. No handle refuses an
offset and no name of an encoding turns out to be useless, whatever a token file holds.
-/

namespace Lexeme

/-- The words of a source are missing only where a run is no text. -/
theorem isFault_of_tokenize {encoding : Encoding} {name : Text} {source : Bytes}
    {failure : Failure} (named : encoding.HasName name)
    (failed : tokenize source name = .error failure) : failure.IsFault := by
  have given := Piece.give_words (Piece.isProper_of_mem_cut source) named 0
  rcases given with ⟨good, rest, _, _, _, ending⟩
  rw [tokenize_eq, scan] at failed
  rcases ending with ⟨_, complete⟩ | ⟨_, _, _, _, _, _, stopped⟩
  · rw [complete] at failed
    contradiction
  · rw [stopped] at failed
    exact ⟨_, (Except.error.inj failed).symm⟩

theorem Partial.failure_of_complete {α : Type} {sequence : Partial α} {failure : Failure}
    (stopped : sequence.complete = .error failure) : sequence.failure = some failure := by
  simp only [complete] at stopped
  split at stopped
  · next found =>
      rw [found, Except.error.inj stopped]
  · contradiction

namespace Command

/-- The failures that the data or a file is to blame for. -/
def CommandFailure.IsBlamed : CommandFailure → Prop
  | .failure reason => reason.IsFault
  | .file (.problem ..) => True
  | .file .holdsNul | .noInput => False

namespace Options

variable {options : Options} {directory : Directory} {failure : CommandFailure}
variable {encoding : Encoding} {data contents : Bytes} {records : List Bytes}
variable {tokens : List Token} {source : Source}

/-- Whether a command was not given what it is to work on. -/
def LacksInput (options : Options) : Prop :=
  match options.command with
  | .scan => options.input = none
  | .show => options.input = none ∨ options.source = none
  | .classify => False

/-- The paths that a command opens: what it reads, and the token file once there is something to
write to it. -/
inductive Opens (options : Options) (directory : Directory) : Path → Prop
  | scanned {input : Path} (scans : options.command = .scan) (given : options.input = some input) :
      Opens options directory input
  | written {data contents : Bytes} {tokens : List Token} {output : Path}
      (scans : options.command = .scan)
      (found : options.findSource directory = .ok (data, tokens))
      (encoded : TokenFile.encode tokens = .ok contents) (chosen : options.output = some output) :
      Opens options directory output
  | shown {input source : Path} (shows : options.command = .show)
      (given : options.input = some input) (sourceGiven : options.source = some source) :
      Opens options directory input
  | consulted {data : Bytes} {tokens : List Token} {input source : Path}
      (shows : options.command = .show) (given : options.input = some input)
      (sourceGiven : options.source = some source) (readInput : directory.read input = .ok data)
      (decoded : TokenFile.decode data = .ok tokens) : Opens options directory source

/-- What can be said of a failure of a command. -/
inductive Explains (options : Options) (directory : Directory) : CommandFailure → Prop
  | noInput (lacks : options.LacksInput) : Explains options directory .noInput
  | holdsNul {path : Path} (opens : options.Opens directory path)
      (holdsNul : path.text.contains '\x00' = true) :
      Explains options directory (.file .holdsNul)
  | blamed {failure : CommandFailure} (blamed : failure.IsBlamed) :
      Explains options directory failure

theorem explains_of_read {path : Path} {problem : OpenFailure}
    (opens : options.Opens directory path) (failed : directory.read path = .error problem) :
    options.Explains directory (.file problem) := by
  cases problem with
  | holdsNul => exact .holdsNul opens (Directory.read_eq_holdsNul_iff.mp failed)
  | problem problem place => exact .blamed trivial

theorem explains_of_write {path : Path} {problem : OpenFailure}
    (opens : options.Opens directory path)
    (failed : directory.write path contents = .error problem) :
    options.Explains directory (.file problem) := by
  cases problem with
  | holdsNul => exact .holdsNul opens (Directory.write_eq_holdsNul_iff.mp failed)
  | problem problem place => exact .blamed trivial

theorem explains_of_findSource (named : encoding.HasName options.encoding)
    (scans : options.command = .scan) (failed : options.findSource directory = .error failure) :
    options.Explains directory failure := by
  simp only [findSource] at failed
  cases given : options.input with
  | none =>
      rw [given] at failed
      cases failed
      apply Explains.noInput
      rw [LacksInput, scans]
      exact given
  | some input =>
      rw [given] at failed
      rcases Except.bind_eq_error_iff.mp failed with impossible | ⟨_, ⟨⟩, failed⟩
      · contradiction
      rcases Except.bind_eq_error_iff.mp failed with noData | ⟨data, _, failed⟩
      · rcases Except.mapError_eq_error_iff.mp noData with ⟨problem, readFailed, rfl⟩
        exact explains_of_read (.scanned scans given) readFailed
      rcases Except.bind_eq_error_iff.mp failed with noTokens | ⟨tokens, _, impossible⟩
      · rcases Except.mapError_eq_error_iff.mp noTokens with ⟨reason, tokenizeFailed, rfl⟩
        exact .blamed (isFault_of_tokenize named tokenizeFailed)
      · contradiction

theorem explains_of_findTokens (shows : options.command = .show)
    (failed : options.findTokens directory = .error failure) :
    options.Explains directory failure := by
  simp only [findTokens] at failed
  cases given : options.input with
  | none =>
      rw [given] at failed
      cases failed
      apply Explains.noInput
      rw [LacksInput, shows]
      exact Or.inl given
  | some input =>
      cases sourceGiven : options.source with
      | none =>
          rw [given, sourceGiven] at failed
          cases failed
          apply Explains.noInput
          rw [LacksInput, shows]
          exact Or.inr sourceGiven
      | some source =>
          rw [given, sourceGiven] at failed
          rcases Except.bind_eq_error_iff.mp failed with impossible | ⟨_, ⟨⟩, failed⟩
          · contradiction
          rcases Except.bind_eq_error_iff.mp failed with impossible | ⟨_, ⟨⟩, failed⟩
          · contradiction
          rcases Except.bind_eq_error_iff.mp failed with noData | ⟨data, readInput, failed⟩
          · rcases Except.mapError_eq_error_iff.mp noData with ⟨problem, readFailed, rfl⟩
            exact explains_of_read (.shown shows given sourceGiven) readFailed
          rcases Except.bind_eq_error_iff.mp failed with noRecords | ⟨records, cut, failed⟩
          · rcases Except.mapError_eq_error_iff.mp noRecords with ⟨fault, _, rfl⟩
            exact .blamed ⟨fault, rfl⟩
          rcases Except.bind_eq_error_iff.mp failed with noTokens | ⟨tokens, unpacked, failed⟩
          · rcases Except.mapError_eq_error_iff.mp noTokens with ⟨fault, _, rfl⟩
            exact .blamed ⟨fault, rfl⟩
          rcases Except.bind_eq_error_iff.mp failed with noSource | ⟨contents, _, impossible⟩
          · rcases Except.mapError_eq_error_iff.mp noSource with ⟨problem, readFailed, rfl⟩
            have decoded : TokenFile.decode data = .ok tokens :=
              Except.bind_eq_ok_iff.mpr ⟨records, Except.mapError_eq_ok_iff.mp cut,
                Except.mapError_eq_ok_iff.mp unpacked⟩
            exact explains_of_read
              (.consulted shows given sourceGiven (Except.mapError_eq_ok_iff.mp readInput) decoded)
              readFailed
          · contradiction

/-- Why a dump of tokens with their texts stops early, if one is made at all. -/
def dumpFailure? (options : Options) (tokens : List Token) (source : Source) : Option Failure :=
  if options.debug then (Dump.rowsWithTexts options.encoding source tokens).1.failure else none

/-- A dump that does not stop early leaves the source as it was. -/
theorem result_dumpTexts (options : Options) (tokens : List Token) (source : Source)
    (directory : Directory) :
    (options.dumpTexts tokens source directory).result =
      match options.dumpFailure? tokens source with
      | some reason => .error (.failure reason)
      | none => .ok source := by
  rw [dumpTexts, dumpFailure?]
  cases options.debug with
  | false => rfl
  | true =>
      have same := (Source.isDiscreet_withTexts tokens options.encoding).snd source
      have reason : (Dump.withTexts tokens source options.encoding).1.2 =
          (Dump.rowsWithTexts options.encoding source tokens).1.failure := rfl
      simp only [if_true, ← reason]
      cases stopped : (Dump.withTexts tokens source options.encoding).1.2 with
      | none =>
          have dumped := Action.result_dump_of_complete stopped directory
          rw [Action.bind_of_ok dumped, same]
          rfl
      | some reason =>
          rw [Action.bind_of_error (Action.result_dump_of_stopped stopped directory)]

/-- Words that are classified by themselves can always be dumped. -/
theorem result_dumpWords (options : Options) (directory : Directory) :
    (options.dumpWords directory).result = .ok () := by
  have packable : ∀ token ∈ options.words.map (Token.ofWord 0), token.IsPackable := by
    intro token tokenMem
    rcases List.mem_map.mp tokenMem with ⟨word, _, rfl⟩
    simp [Token.IsPackable, Token.ofWord, Token.maxOffset]
  rw [dumpWords]
  split
  · exact Action.result_dump_of_complete (Dump.failure_bareRows_eq_none packable) directory
  · rfl

theorem isFault_of_dumpFailure? (named : encoding.HasName options.encoding)
    (addressable : ∀ token ∈ tokens, token.IsAddressable) {reason : Failure}
    (stopped : options.dumpFailure? tokens source = some reason) : reason.IsFault := by
  rw [dumpFailure?] at stopped
  split at stopped
  · exact Dump.isFault_of_rowsWithTexts named addressable stopped
  · contradiction

theorem isBlamed_of_dumpTexts (named : encoding.HasName options.encoding)
    (addressable : ∀ token ∈ tokens, token.IsAddressable)
    (failed : (options.dumpTexts tokens source directory).result = .error failure) :
    failure.IsBlamed := by
  rw [result_dumpTexts] at failed
  split at failed
  · next reason stopped =>
      cases failed
      exact isFault_of_dumpFailure? named addressable stopped
  · contradiction

theorem explains_of_finishScan (named : encoding.HasName options.encoding)
    (scans : options.command = .scan)
    (found : options.findSource directory = .ok (data, tokens))
    (addressable : ∀ token ∈ tokens, token.IsAddressable)
    (failed : (options.finishScan data tokens directory).result = .error failure) :
    options.Explains directory failure := by
  cases chosen : options.output with
  | some output =>
      simp only [finishScan, chosen] at failed
      rcases Action.result_bind_eq_error_iff.mp failed with notEncoded | ⟨contents, encoded, failed⟩
      · rcases Except.mapError_eq_error_iff.mp notEncoded with ⟨reason, encodeFailed, rfl⟩
        exact .blamed (isFault_of_encode addressable encodeFailed)
      rcases Action.result_bind_eq_error_iff.mp failed with notWritten | ⟨_, _, impossible⟩
      · have encoded := Except.mapError_eq_ok_iff.mp encoded
        have opens := Opens.written scans found encoded chosen
        cases wrote : directory.write output contents with
        | ok after => simp [Action.write, Action.settle, Action.consult, wrote] at notWritten
        | error problem =>
            simp only [Action.write, Action.settle, Action.consult, wrote,
              Except.error.injEq] at notWritten
            rw [← notWritten]
            exact explains_of_write opens wrote
      · contradiction
  | none =>
      simp only [finishScan, chosen] at failed
      rcases Action.result_bind_eq_error_iff.mp failed with notDrawn | ⟨items, _, impossible⟩
      · rcases Except.mapError_eq_error_iff.mp notDrawn with ⟨reason, stopped, rfl⟩
        have stopped := Partial.failure_of_complete stopped
        exact .blamed (Source.isFault_of_texts named addressable stopped)
      · contradiction

theorem isFault_of_lookUpRows (named : encoding.HasName options.encoding)
    {members : List Token} (membersPackable : ∀ token ∈ members, token.IsPackable)
    (packable : ∀ token ∈ tokens, token.IsPackable) {reason : Failure}
    (failed : options.lookUpRows (members.map Token.record) source tokens = .error reason) :
    reason.IsFault := by
  induction tokens generalizing source with
  | nil => contradiction
  | cons token rest inductionHypothesis =>
      rw [List.forall_mem_cons] at packable
      rw [lookUpRows] at failed
      split at failed
      · split at failed
        · next looked =>
            cases failed
            apply Source.isFault_of_packedText named packable.1 membersPackable
            rw [looked]
        · exact inductionHypothesis packable.2 (Except.map_eq_error_iff.mp failed)
      · exact inductionHypothesis packable.2 (Except.map_eq_error_iff.mp failed)

/-- Tokens of a source start inside of it. -/
theorem isAddressable_of_findSource
    (addressable : ∀ path data, directory.read path = .ok data →
      (data.length : Int) ≤ Source.maxIndex)
    (found : options.findSource directory = .ok (data, tokens)) :
    ∀ token ∈ tokens, token.IsAddressable := by
  rcases findSource_eq_ok_iff.mp found with ⟨input, _, readInput, tokenized⟩
  have bounded := addressable input data readInput
  intro token tokenMem
  have inside := (offsets_of_tokenize tokenized).1 token tokenMem
  exact ⟨inside.1, by omega⟩

/-- A command fails for a reason that can be told: it lacks its input, it opens a path that holds
a zero character, or the data or a file is to blame. -/
theorem explains_of_perform (named : encoding.HasName options.encoding)
    (addressable : ∀ path data, directory.read path = .ok data →
      (data.length : Int) ≤ Source.maxIndex)
    (failed : (options.perform directory).result = .error failure) :
    options.Explains directory failure := by
  rw [perform] at failed
  cases asked : options.command with
  | scan =>
      rw [asked] at failed
      rcases Action.result_bind_eq_error_iff.mp failed with
        notFound | ⟨⟨data, tokens⟩, found, failed⟩
      · exact explains_of_findSource named asked notFound
      have found : options.findSource directory = .ok (data, tokens) := found
      have tokensAddressable := isAddressable_of_findSource addressable found
      rcases Action.result_bind_eq_error_iff.mp failed with notDumped | ⟨_, _, failed⟩
      · exact .blamed (isBlamed_of_dumpTexts named tokensAddressable notDumped)
      · rw [((options.isQuiet_dumpTexts _) _).2] at failed
        exact explains_of_finishScan named asked found tokensAddressable failed
  | «show» =>
      rw [asked] at failed
      rcases Action.result_bind_eq_error_iff.mp failed with
        notFound | ⟨⟨records, tokens, contents⟩, found, failed⟩
      · exact explains_of_findTokens asked notFound
      have found : options.findTokens directory = .ok (records, tokens, contents) := found
      rcases findTokens_eq_ok_iff.mp found with ⟨_, _, _, _, _, _, packable, rfl⟩
      have tokensAddressable : ∀ token ∈ tokens, token.IsAddressable := by
        intro token tokenMem
        exact (packable token tokenMem).isAddressable
      rcases Action.result_bind_eq_error_iff.mp failed with notDumped | ⟨source, _, failed⟩
      · exact .blamed (isBlamed_of_dumpTexts named tokensAddressable notDumped)
      rcases Action.result_bind_eq_error_iff.mp failed with notLookedUp | ⟨_, _, impossible⟩
      · rcases Except.mapError_eq_error_iff.mp notLookedUp with ⟨reason, lookUpFailed, rfl⟩
        exact .blamed (isFault_of_lookUpRows named packable packable lookUpFailed)
      · contradiction
  | classify =>
      rw [asked] at failed
      rcases Action.result_bind_eq_error_iff.mp failed with notDumped | ⟨_, _, impossible⟩
      · rw [result_dumpWords] at notDumped
        contradiction
      · contradiction

theorem failed_of_lacksInput (lacks : options.LacksInput) :
    (options.perform directory).result = .error .noInput := by
  rw [LacksInput] at lacks
  cases asked : options.command with
  | scan =>
      rw [asked] at lacks
      have failed : options.findSource directory = .error .noInput := by
        rw [findSource, lacks]
        rfl
      rw [perform_of_findSource_eq_error asked failed]
  | «show» =>
      rw [asked] at lacks
      have failed : options.findTokens directory = .error .noInput := by
        rw [findTokens]
        rcases lacks with lacksInput | lacksSource
        · rw [lacksInput]
          rfl
        · rw [lacksSource]
          cases options.input <;> rfl
      rw [perform_of_findTokens_eq_error asked failed]
  | classify =>
      rw [asked] at lacks
      contradiction

/-- The dump of a source's own tokens stops only where a token has no record. -/
theorem dumpFailure?_of_tokenize (named : encoding.HasName options.encoding)
    (bytewise : encoding ∈ Encoding.bytewise)
    (tokenized : tokenize data options.encoding = .ok tokens)
    (addressable : ∀ token ∈ tokens, token.IsAddressable) :
    options.dumpFailure? tokens (.ofBytes data) = none ↔
      (options.debug = true → ∀ token ∈ tokens, token.IsPackable) := by
  have readable : Source.IsReadable options.encoding data tokens :=
    ⟨_, readings_of_tokenize named bytewise tokenized fun token tokenMem =>
      (addressable token tokenMem).2⟩
  rw [dumpFailure?]
  split
  · next debug =>
      rw [Dump.failure_rowsWithTexts_eq_none_iff]
      exact ⟨fun complete _ => complete.2, fun packable => ⟨readable, packable debug⟩⟩
  · next plain => exact ⟨fun _ debug => absurd debug plain, fun _ => rfl⟩

theorem failed_of_holdsNul {path : Path} (named : encoding.HasName options.encoding)
    (bytewise : encoding ∈ Encoding.bytewise) (opens : options.Opens directory path)
    (holdsNul : path.text.contains '\x00' = true) :
    (options.perform directory).result = .error (.file .holdsNul) := by
  have notRead : directory.read path = .error .holdsNul :=
    Directory.read_eq_holdsNul_iff.mpr holdsNul
  cases opens with
  | scanned scans given =>
      have failed : options.findSource directory = .error (.file .holdsNul) := by
        simp [findSource, given, notRead, bind, Except.bind, Except.mapError]
      rw [perform_of_findSource_eq_error scans failed]
  | @written data contents tokens _ scans found encoded chosen =>
      rcases findSource_eq_ok_iff.mp found with ⟨input, _, readInput, tokenized⟩
      have packable := (TokenFile.encode_eq_ok_iff.mp encoded).1
      have complete := (dumpFailure?_of_tokenize named bytewise tokenized fun token tokenMem =>
        (packable token tokenMem).isAddressable).mpr fun _ => packable
      have dumped := options.result_dumpTexts tokens (.ofBytes data) directory
      rw [complete] at dumped
      have notWritten : directory.write path contents = .error .holdsNul :=
        Directory.write_eq_holdsNul_iff.mpr holdsNul
      have failed : (options.finishScan data tokens directory).result =
          .error (.file .holdsNul) := by
        simp only [finishScan, chosen]
        rw [Action.settle_bind_of_ok encoded, Action.bind_of_error]
        simp only [Action.write, notWritten]
      rw [perform, scans]
      simp only [scanSource_of_found found]
      rw [Action.bind_of_ok dumped, ((options.isQuiet_dumpTexts _) _).2]
      exact failed
  | shown shows given sourceGiven =>
      have failed : options.findTokens directory = .error (.file .holdsNul) := by
        simp [findTokens, given, sourceGiven, notRead, bind, Except.bind, Except.mapError]
      rw [perform_of_findTokens_eq_error shows failed]
  | consulted shows given sourceGiven readInput decoded =>
      rcases Except.bind_eq_ok_iff.mp decoded with ⟨records, cut, unpacked⟩
      have failed : options.findTokens directory = .error (.file .holdsNul) := by
        simp [findTokens, given, sourceGiven, readInput, cut, unpacked, notRead, bind, Except.bind,
          Except.mapError]
      rw [perform_of_findTokens_eq_error shows failed]

end Options

end Command

end Lexeme
