import Lexeme.Proofs.Command.Effects
import Lexeme.Proofs.Command.ExitCode
import Lexeme.Proofs.Locate.Unordered

/-!
# Token files that are shown

A token file is shown with texts if it is well formed and all its tokens are found among its
records. The search for them is all that looks at the order of the records. It cannot miss records
that are out of order and differ from each other, but a record that is repeated is found again in
the place of the first one that the search comes upon.
-/

namespace Lexeme

namespace TokenFile

variable {data contents : Bytes} {tokens : List Token} {encoding : Encoding} {name : Text}

/-- A token file that can be shown with the texts of a source: its records increase byte by byte,
the last token starts inside the source, and the bytes from the offset of each token to that of the
next one, or to the end, are decodable. -/
structure Suits (data contents : Bytes) (encoding : Encoding) (tokens : List Token) : Prop where
  wellFormed : IsWellFormed data
  decoded : decode data = .ok tokens
  increasing : (chunks data).Pairwise (· < ·)
  inside : ∀ last ∈ tokens.getLast?, last.offset < contents.length
  decodable : ∀ (index : Nat) token, tokens[index]? = some token → ∃ text,
    encoding.decode (sourceBytes contents token.offset (tokens[index + 1]?.map Token.offset)) =
      .ok text

theorem packable_of_decode (decoded : decode data = .ok tokens) :
    ∀ token ∈ tokens, token.IsPackable :=
  (encode_eq_ok_iff.mp (decode_eq_ok_iff.mp decoded)).1

theorem decode_of_packable (packable : ∀ token ∈ tokens, token.IsPackable) :
    decode (tokens.map Token.record).flatten = .ok tokens :=
  decode_eq_ok_iff.mpr (encode_eq_ok_iff.mpr ⟨packable, rfl⟩)

theorem chunks_of_decode (decoded : decode data = .ok tokens) :
    chunks data = tokens.map Token.record := by
  rw [(encode_eq_ok_iff.mp (decode_eq_ok_iff.mp decoded)).2]
  apply chunks_flatten
  simp

theorem decodable_slices_iff :
    (∀ slice ∈ Token.slices contents tokens, ∃ text, encoding.decode slice = .ok text) ↔
      ∀ (index : Nat) token, tokens[index]? = some token → ∃ text,
        encoding.decode (sourceBytes contents token.offset
          (tokens[index + 1]?.map Token.offset)) = .ok text := by
  simp only [List.mem_iff_getElem?, Token.getElem?_slices, Option.map_eq_some_iff]
  constructor
  · intro decodes index token found
    exact decodes _ ⟨index, token, found, rfl⟩
  · rintro decodes _ ⟨index, token, found, rfl⟩
    exact decodes index token found

theorem ordered_of_suits (suits : Suits data contents encoding tokens) :
    tokens.Pairwise Token.Precedes := by
  have ordered := suits.increasing
  rwa [chunks_of_decode suits.decoded,
    Token.pairwise_record_iff (packable_of_decode suits.decoded)] at ordered

/-- A token file of different records suits a source exactly if all its tokens are found with
their texts. -/
theorem suits_iff (named : encoding.HasName name) (decoded : decode data = .ok tokens)
    (nodup : (chunks data).Nodup) (source : Source) :
    Suits data source.contents encoding tokens ↔ ∀ token ∈ tokens, ∃ text,
      (source.packedText token (tokens.map Token.record) name).1 = .ok text := by
  have packable := packable_of_decode decoded
  rw [chunks_of_decode decoded] at nodup
  rw [Source.exists_packedText_iff packable (List.Nodup.of_map _ nodup)]
  constructor
  · intro suits
    have ordered := ordered_of_suits suits
    refine ⟨ordered, (Source.isReadable_iff named packable ordered).mpr ⟨suits.inside, ?_⟩⟩
    exact decodable_slices_iff.mpr suits.decodable
  · rintro ⟨ordered, readable⟩
    have bounds := (Source.isReadable_iff named packable ordered).mp readable
    refine ⟨exists_decode_eq_ok_iff.mp ⟨tokens, decoded⟩, decoded, ?_, bounds.1, ?_⟩
    · rwa [chunks_of_decode decoded, Token.pairwise_record_iff packable]
    · exact decodable_slices_iff.mp bounds.2

end TokenFile

namespace Command

namespace Options

variable {options : Options} {directory : Directory} {tokens : List Token} {source : Source}
variable {records : List Bytes}

/-- Texts are looked up independently of each other. -/
theorem lookUpRows_eq_mapM (shown : options.showText = true) :
    options.lookUpRows records source tokens = tokens.mapM fun token =>
      (source.packedText token records options.encoding).1.map fun text =>
        Report.Row.mk token (some text) := by
  induction tokens with
  | nil => rfl
  | cons token tokens inductionHypothesis =>
      have same := (Source.isDiscreet_packedText token records options.encoding).snd source
      rw [lookUpRows, if_pos shown, List.mapM_cons]
      cases looked : source.packedText token records options.encoding with
      | mk result after =>
          rw [looked] at same
          obtain rfl : after = source := same
          cases result with
          | error failure => rfl
          | ok text =>
              simp only [inductionHypothesis]
              rfl

theorem exists_lookUpRows_iff (shown : options.showText = true) :
    (∃ rows, options.lookUpRows records source tokens = .ok rows) ↔
      ∀ token ∈ tokens, ∃ text,
        (source.packedText token records options.encoding).1 = .ok text := by
  rw [lookUpRows_eq_mapM shown, Except.exists_mapM_eq_ok_iff]
  simp only [Except.map_eq_ok_iff]
  constructor
  · intro lookedUp token tokenMem
    rcases lookedUp token tokenMem with ⟨_, text, read, _⟩
    exact ⟨text, read⟩
  · intro lookedUp token tokenMem
    rcases lookedUp token tokenMem with ⟨text, read⟩
    exact ⟨_, text, read, rfl⟩

/-- A token file that has been shown, with or without a dump, has had all its tokens looked up. -/
theorem lookUpRows_of_perform (shows : options.command = .show)
    (done : (options.perform directory).result = .ok ()) :
    ∃ tokens contents rows,
      options.findTokens directory = .ok (tokens.map Token.record, tokens, contents) ∧
      options.lookUpRows (tokens.map Token.record) (.ofBytes contents) tokens = .ok rows := by
  rw [perform, shows] at done
  rcases Action.result_bind_eq_ok_iff.mp done with ⟨⟨records, tokens, contents⟩, found, done⟩
  have found : options.findTokens directory = .ok (records, tokens, contents) := found
  rcases findTokens_eq_ok_iff.mp found with ⟨_, _, _, _, _, _, _, rfl⟩
  rcases Action.result_bind_eq_ok_iff.mp done with ⟨source, dumped, done⟩
  rcases Action.result_bind_eq_ok_iff.mp done with ⟨rows, settled, _⟩
  have unmoved : Source.ofBytes contents = source := by
    have dumps := options.result_dumpTexts tokens (.ofBytes contents) directory
    split at dumps
    · exact absurd (dumps.symm.trans dumped) (by simp)
    · exact Except.ok.inj (dumps.symm.trans dumped)
  have lookedUp := Except.mapError_eq_ok_iff.mp settled
  rw [← unmoved] at lookedUp
  exact ⟨tokens, contents, rows, found, lookedUp⟩

/-- Without a dump, looking the tokens up is all there is to it. -/
theorem perform_of_lookUpRows {contents : Bytes} {rows : List Report.Row}
    (shows : options.command = .show) (plain : options.debug = false)
    (found : options.findTokens directory = .ok (records, tokens, contents))
    (lookedUp : options.lookUpRows records (.ofBytes contents) tokens = .ok rows) :
    options.perform directory = ⟨options.report rows, [], directory, .ok ()⟩ := by
  rw [perform, shows]
  exact (showTokens_of_plain plain found).trans (finishShow_of_rows lookedUp)

/-- A token file that cannot be read is refused before the source is opened. -/
theorem run_of_isRefusedFor {input sourceFile : Path} {data : Bytes} {fault : Fault}
    (shows : options.command = .show) (given : options.input = some input)
    (sourceGiven : options.source = some sourceFile) (readInput : directory.read input = .ok data)
    (refused : TokenFile.IsRefusedFor data fault) :
    options.run directory =
      ⟨.exit 1, [], line (fault.diagnostic.render options.fileName), directory⟩ := by
  have failed : options.findTokens directory = .error (.failure (.fault fault)) := by
    have undecoded := TokenFile.decode_of_isRefusedFor refused
    rw [TokenFile.decode, Except.bind_eq_error_iff] at undecoded
    rw [findTokens, given, sourceGiven]
    rcases undecoded with uncut | ⟨records, cut, unread⟩
    · simp [readInput, uncut, bind, Except.bind, Except.mapError]
    · simp [readInput, cut, unread, bind, Except.bind, Except.mapError]
  rw [run, perform_of_findTokens_eq_error shows failed]
  rfl

section

variable {input sourceFile : Path} {data contents others : Bytes} {encoding : Encoding}

theorem findTokens_iff_decode (given : options.input = some input)
    (sourceGiven : options.source = some sourceFile) (readInput : directory.read input = .ok data)
    (readSource : directory.read sourceFile = .ok contents) :
    options.findTokens directory = .ok (records, tokens, others) ↔
      TokenFile.decode data = .ok tokens ∧ records = tokens.map Token.record ∧
        others = contents := by
  rw [findTokens_eq_ok_iff, TokenFile.decode_eq_ok_iff, TokenFile.encode_eq_ok_iff]
  constructor
  · rintro ⟨_, _, givenAgain, sourceAgain, readAgain, sourceReadAgain, packable, rfl⟩
    rw [given, Option.some.injEq] at givenAgain
    rw [sourceGiven, Option.some.injEq] at sourceAgain
    rw [← givenAgain, readInput, Except.ok.injEq] at readAgain
    rw [← sourceAgain, readSource, Except.ok.injEq] at sourceReadAgain
    exact ⟨⟨packable, readAgain⟩, rfl, sourceReadAgain.symm⟩
  · rintro ⟨⟨packable, rfl⟩, rfl, rfl⟩
    exact ⟨input, sourceFile, given, sourceGiven, readInput, readSource, packable, rfl⟩

/-- A token file of different records is shown exactly if it suits the source. -/
theorem exit_zero_iff_suits (shows : options.command = .show) (plain : options.debug = false)
    (shown : options.showText = true) (named : encoding.HasName options.encoding)
    (given : options.input = some input) (sourceGiven : options.source = some sourceFile)
    (readInput : directory.read input = .ok data)
    (readSource : directory.read sourceFile = .ok contents)
    (nodup : (TokenFile.chunks data).Nodup) :
    (options.run directory).ending = .exit 0 ↔
      ∃ tokens, TokenFile.Suits data contents encoding tokens := by
  constructor
  · intro ended
    rcases perform_of_run ended with ⟨err, out, after, performed⟩
    rcases lookUpRows_of_perform shows (by rw [performed]) with
      ⟨tokens, others, rows, found, lookedUp⟩
    rcases (findTokens_iff_decode given sourceGiven readInput readSource).mp found with
      ⟨decoded, _, rfl⟩
    have texts := (exists_lookUpRows_iff shown).mp ⟨rows, lookedUp⟩
    exact ⟨tokens, (TokenFile.suits_iff named decoded nodup _).mpr texts⟩
  · rintro ⟨tokens, suits⟩
    have decoded := suits.decoded
    have texts := (TokenFile.suits_iff named decoded nodup (.ofBytes contents)).mp suits
    rcases (exists_lookUpRows_iff shown).mpr texts with ⟨rows, lookedUp⟩
    have found := (findTokens_iff_decode given sourceGiven readInput readSource).mpr
      ⟨decoded, rfl, rfl⟩
    rw [run_of_perform (perform_of_lookUpRows shows plain found lookedUp)]

/-- The rows of a shown token file are its tokens with the texts of their own spans. -/
theorem rows_of_suits (shown : options.showText = true)
    (named : encoding.HasName options.encoding)
    (suits : TokenFile.Suits data contents encoding tokens) :
    ∃ rows, options.lookUpRows (tokens.map Token.record) (.ofBytes contents) tokens = .ok rows ∧
      rows.length = tokens.length ∧
      ∀ (index : Nat) token, tokens[index]? = some token → ∃ text,
        encoding.decode (sourceBytes contents token.offset
          (tokens[index + 1]?.map Token.offset)) = .ok text ∧
        rows[index]? = some ⟨token, some text⟩ := by
  have packable := TokenFile.packable_of_decode suits.decoded
  have ordered := TokenFile.ordered_of_suits suits
  have readable := (Source.isReadable_iff named packable ordered).mpr
    ⟨suits.inside, TokenFile.decodable_slices_iff.mpr suits.decodable⟩
  have texts := (Source.forall_packedText_iff packable ordered (.ofBytes contents)).mpr readable
  rcases (exists_lookUpRows_iff shown).mpr texts with ⟨rows, lookedUp⟩
  have mapped := lookedUp
  rw [lookUpRows_eq_mapM shown] at mapped
  refine ⟨rows, lookedUp, Except.length_of_mapM mapped, ?_⟩
  intro index token found
  rcases Except.getElem?_of_mapM mapped found with ⟨row, lookedUpRow, rowFound⟩
  rcases Except.map_eq_ok_iff.mp lookedUpRow with ⟨text, read, rfl⟩
  rw [Source.packedText_of_ordered _ _ packable ordered found] at read
  have decoded := Mark.decode_of_textIn named read
  rw [nextOffset_token] at decoded
  exact ⟨text, decoded, rowFound⟩

end

end Options

/-- What is settled by default. -/
def defaultManner : Manner :=
  ⟨"utf-8".toList, some .table, true⟩

theorem manner_of_unconfigured {directory : Directory}
    (unconfigured : loadConfig directory (Flag.configPath [] "a.src".toList) = .ok []) :
    Flag.manner directory [] "a.src".toList = .ok defaultManner :=
  Except.bind_eq_ok_iff.mpr ⟨[], unconfigured, settle_of_unset rfl rfl⟩

theorem resolve_of_unconfigured {directory : Directory}
    (unconfigured : loadConfig directory (Flag.configPath [] "a.src".toList) = .ok []) :
    Options.resolve directory (showArguments "t".toList "a.src".toList []) =
      .ok (defaultManner.showing "t".toList "a.src".toList) := by
  rw [resolve_showArguments _ (by decide), manner_of_unconfigured unconfigured]
  rfl

theorem parse_showLine_of_unset :
    Arguments.parse (showLine "t".toList "a.src".toList []) =
      .ok (showArguments "t".toList "a.src".toList []) :=
  (parse_showLine_eq_ok_iff (by decide) (by decide)).mpr ⟨by simp, rfl⟩

/-- The token file of a source, shown with the source. -/
theorem run_tokenDirectory :
    run tokenDirectory (showLine "t".toList "a.src".toList []) =
      .ok ⟨.exit 0, "0\tPLUS\t'+'\n1\tNEWLINE\t'\\n'\n".toList, [], tokenDirectory⟩ := by
  have readings : Source.readings "utf-8".toList [0x2b, 0x0a] [Token.mk 0 .plus, ⟨1, .newline⟩] =
      ["+".toList, "\n".toList].map .ok := by
    rfl
  have readTokens : tokenDirectory.read (.ofText "t".toList) =
      .ok ([Token.mk 0 .plus, ⟨1, .newline⟩].map Token.record).flatten := by
    rfl
  have reported : defaultManner.report [⟨0, .plus⟩, ⟨1, .newline⟩] ["+".toList, "\n".toList] =
      "0\tPLUS\t'+'\n1\tNEWLINE\t'\\n'\n".toList := by
    decide +kernel
  rw [← reported]
  apply run_showLine (by decide) (by decide) (by decide) (by simp)
    (manner_of_unconfigured rfl)
  exact Manner.perform_showing (by decide) (by decide) readTokens rfl
    (by simp [Token.IsPackable, Token.maxOffset]) (by decide) readings

section

variable {directory : Directory} {commandLine : List Text} {arguments : Arguments}
variable {options : Options} {outcome : Outcome}

theorem eq_run_of_resolve (ran : run directory commandLine = .ok outcome)
    (parsed : Arguments.parse commandLine = .ok arguments)
    (resolved : Options.resolve directory arguments = .ok options) :
    outcome = options.run directory := by
  rcases run_eq_ok_iff.mp ran with ⟨others, parsedAgain, rfl⟩
  rw [parsed, Except.ok.injEq] at parsedAgain
  rw [← parsedAgain, Arguments.run, resolved]

/-- A token file that is shown with texts holds, among its records, increasing ones that are all
there are. So without repetition its records increase, and tokens with different offsets stand in
the order of their offsets. -/
theorem shown_records_increase (ran : run directory commandLine = .ok outcome)
    (parsed : Arguments.parse commandLine = .ok arguments)
    (resolved : Options.resolve directory arguments = .ok options)
    (shows : arguments.command = .show) (shown : options.showText = true)
    (ended : outcome.ending = .exit 0) :
    ∃ input data tokens, options.input = some input ∧ directory.read input = .ok data ∧
      TokenFile.decode data = .ok tokens ∧
      (∃ kept : List Token, kept.Sublist tokens ∧ kept.Pairwise Token.Precedes ∧
        ∀ token ∈ tokens, token ∈ kept) ∧
      (tokens.Nodup → tokens.Pairwise Token.Precedes) ∧
      ((tokens.map Token.offset).Nodup → tokens.Pairwise (·.offset < ·.offset)) := by
  rw [eq_run_of_resolve ran parsed resolved] at ended
  rcases Options.perform_of_run ended with ⟨err, out, after, performed⟩
  have asked : options.command = .show := (fields_of_resolve resolved).1.trans shows
  rcases Options.lookUpRows_of_perform asked (by rw [performed]) with
    ⟨tokens, contents, rows, found, lookedUp⟩
  rcases Options.findTokens_eq_ok_iff.mp found with
    ⟨input, _, given, _, readInput, _, packable, _⟩
  have decoded := TokenFile.decode_of_packable packable
  have texts := (Options.exists_lookUpRows_iff shown).mp ⟨rows, lookedUp⟩
  have ordered (nodup : tokens.Nodup) : tokens.Pairwise Token.Precedes :=
    ((Source.exists_packedText_iff packable nodup).mp texts).1
  refine ⟨input, _, tokens, given, readInput, decoded, ?_, ordered, ?_⟩
  · rcases Search.exists_increasing_of_found (Source.found_of_packedText packable texts) with
      ⟨kept, shortened, increasing, complete⟩
    refine ⟨kept, shortened, ?_, complete⟩
    apply (Token.pairwise_precedes_iff _).mpr increasing
    intro member memberMem
    exact packable member (shortened.subset memberMem)
  · intro apart
    have nodup := List.Nodup.of_map _ apart
    rw [List.Nodup, List.pairwise_map] at apart
    apply (apart.and (ordered nodup)).imp
    rintro first second ⟨different, offset_lt | ⟨sameOffset, _⟩⟩
    · exact offset_lt
    · exact absurd sameOffset different

/-- The token file of a source has increasing offsets. -/
theorem shown_records_increase_of_source : ∃ outcome data tokens,
    run tokenDirectory (showLine "t".toList "a.src".toList []) = .ok outcome ∧
      outcome.ending = .exit 0 ∧ tokenDirectory.read (.ofText "t".toList) = .ok data ∧
      TokenFile.decode data = .ok tokens ∧ tokens ≠ [] ∧
      tokens.Pairwise (·.offset < ·.offset) := by
  rcases shown_records_increase run_tokenDirectory parse_showLine_of_unset
    (resolve_of_unconfigured rfl) rfl rfl rfl with
    ⟨input, data, tokens, given, readInput, decoded, _, _, ordered⟩
  obtain rfl : Path.ofText "t".toList = input := Option.some.inj given
  have read : tokenDirectory.read (.ofText "t".toList) =
      .ok ([Token.mk 0 .plus, ⟨1, .newline⟩].map Token.record).flatten := by
    rfl
  have packable : ∀ token ∈ [Token.mk 0 .plus, ⟨1, .newline⟩], token.IsPackable := by
    simp [Token.IsPackable, Token.maxOffset]
  have tokensAre := TokenFile.decode_of_packable packable
  rw [read, Except.ok.injEq] at readInput
  rw [← readInput, tokensAre, Except.ok.injEq] at decoded
  rw [← decoded] at ordered
  exact ⟨_, _, _, run_tokenDirectory, rfl, read, tokensAre, by simp, ordered (by decide)⟩

/-- A directory with a token file that holds one record twice. -/
def repeatedDirectory : Directory :=
  sourceDirectory.put ⟨some 0, ["t".toList]⟩ (.file [0, 0, 0, 0, 13, 0, 0, 0, 0, 13])

/-- A record that is repeated is found in the place of the first one, whose span is empty. -/
theorem repeated_record_is_shown :
    run repeatedDirectory (showLine "t".toList "a.src".toList []) =
        .ok ⟨.exit 0, "0\tPLUS\t''\n0\tPLUS\t''\n".toList, [], repeatedDirectory⟩ ∧
      ∃ options data tokens,
        Arguments.parse (showLine "t".toList "a.src".toList []) =
          .ok (showArguments "t".toList "a.src".toList []) ∧
        Options.resolve repeatedDirectory (showArguments "t".toList "a.src".toList []) =
          .ok options ∧
        options.showText = true ∧ options.input = some (.ofText "t".toList) ∧
        repeatedDirectory.read (.ofText "t".toList) = .ok data ∧
        TokenFile.decode data = .ok tokens ∧ ¬tokens.Pairwise (·.offset < ·.offset) := by
  have packable : ∀ token ∈ [Token.mk 0 .plus, ⟨0, .plus⟩], token.IsPackable := by
    simp [Token.IsPackable, Token.maxOffset]
  have found : Search.place Token.code [Token.mk 0 .plus, ⟨0, .plus⟩] ⟨0, .plus⟩ = 0 := by
    simp [Search.place, Search.lowerBound, Search.bisect]
  have looked : (Source.ofBytes [0x2b, 0x0a]).packedText ⟨0, .plus⟩
      ([Token.mk 0 .plus, ⟨0, .plus⟩].map Token.record) "utf-8".toList =
        (.ok [], .ofBytes [0x2b, 0x0a]) := by
    rw [Source.packedText_token _ _ (packable _ List.mem_cons_self) packable, found]
    rfl
  have lookedUp : (defaultManner.showing "t".toList "a.src".toList).lookUpRows
      ([Token.mk 0 .plus, ⟨0, .plus⟩].map Token.record) (.ofBytes [0x2b, 0x0a])
      [⟨0, .plus⟩, ⟨0, .plus⟩] = .ok [⟨⟨0, .plus⟩, some []⟩, ⟨⟨0, .plus⟩, some []⟩] := by
    have looked : (Source.ofBytes [0x2b, 0x0a]).packedText ⟨0, .plus⟩
        ([Token.mk 0 .plus, ⟨0, .plus⟩].map Token.record)
        (defaultManner.showing "t".toList "a.src".toList).encoding =
          (.ok [], .ofBytes [0x2b, 0x0a]) := looked
    rw [Options.lookUpRows_eq_mapM rfl]
    simp only [List.mapM_cons, List.mapM_nil, looked]
    rfl
  have readTokens : repeatedDirectory.read (.ofText "t".toList) =
      .ok ([Token.mk 0 .plus, ⟨0, .plus⟩].map Token.record).flatten := by
    rfl
  have foundTokens : (defaultManner.showing "t".toList "a.src".toList).findTokens
      repeatedDirectory = .ok ([Token.mk 0 .plus, ⟨0, .plus⟩].map Token.record,
        [⟨0, .plus⟩, ⟨0, .plus⟩], [0x2b, 0x0a]) :=
    Options.findTokens_eq_ok_iff.mpr ⟨_, _, rfl, rfl, readTokens, rfl, packable, rfl⟩
  have reported : (defaultManner.showing "t".toList "a.src".toList).report
      [⟨⟨0, .plus⟩, some []⟩, ⟨⟨0, .plus⟩, some []⟩] = "0\tPLUS\t''\n0\tPLUS\t''\n".toList := by
    decide +kernel
  refine ⟨?_, _, _, _, parse_showLine_of_unset, resolve_of_unconfigured rfl, rfl, rfl,
    readTokens, TokenFile.decode_of_packable packable, by decide⟩
  rw [← reported]
  exact run_of_resolve parse_showLine_of_unset (resolve_of_unconfigured rfl)
    (Options.perform_of_lookUpRows rfl rfl foundTokens lookedUp)

/-- Among token files of different records, those that suit the source are shown, and only those;
each row is a token with the text of its own span. A token file that is not well formed is refused
for what is wrong with it first, with the message that says so, whether or not there is a source. -/
theorem show_accepts_what_suits (parsed : Arguments.parse commandLine = .ok arguments)
    (resolved : Options.resolve directory arguments = .ok options)
    (shows : arguments.command = .show) (plain : arguments.isRaised .debug = false)
    (shown : options.showText = true) {input sourceFile : Path} {data : Bytes}
    (given : options.input = some input) (sourceGiven : options.source = some sourceFile)
    (readInput : directory.read input = .ok data) {encoding : Encoding}
    (known : Encoding.ofName options.encoding = .ok encoding) :
    ∃ outcome, run directory commandLine = .ok outcome ∧
    (¬TokenFile.IsWellFormed data → ∃ fault, TokenFile.IsRefusedFor data fault ∧
      outcome = ⟨.exit 1, [], line (fault.diagnostic.render options.fileName), directory⟩ ∧
      ∃ behind, outcome.err = ("error: " ++ fault.diagnostic.message ++ "\n").toList ++ behind) ∧
    ∀ contents, directory.read sourceFile = .ok contents → (TokenFile.chunks data).Nodup →
      (outcome.ending = .exit 0 ↔ ∃ tokens, TokenFile.Suits data contents encoding tokens) ∧
      (outcome.ending = .exit 0 → ∃ tokens rows, TokenFile.decode data = .ok tokens ∧
        outcome = ⟨.exit 0, options.report rows, [], directory⟩ ∧
        rows.length = tokens.length ∧
        ∀ (index : Nat) token, tokens[index]? = some token → ∃ text,
          encoding.decode (sourceBytes contents token.offset
            (tokens[index + 1]?.map Token.offset)) = .ok text ∧
          rows[index]? = some ⟨token, some text⟩) := by
  have named := hasName_of_resolve resolved known
  rcases fields_of_resolve resolved with ⟨sameCommand, _, _, sameDebug⟩
  have asked : options.command = .show := sameCommand.trans shows
  have undumped : options.debug = false := sameDebug.trans plain
  refine ⟨options.run directory, ?_, ?_, ?_⟩
  · refine run_eq_ok_iff.mpr ⟨arguments, parsed, ?_⟩
    rw [Arguments.run, resolved]
  · intro malformed
    cases decoded : TokenFile.decode data with
    | ok tokens => exact absurd (TokenFile.exists_decode_eq_ok_iff.mp ⟨tokens, decoded⟩) malformed
    | error fault =>
        have refused := TokenFile.decode_eq_error_iff.mp decoded
        have ended := Options.run_of_isRefusedFor asked given sourceGiven readInput refused
        rcases fault.diagnostic.exists_render_eq options.fileName with ⟨rest, rendered⟩
        refine ⟨fault, refused, ended, rest.toList ++ ['\n'], ?_⟩
        rw [ended, line, rendered, String.toList_append, List.append_assoc]
  · intro contents readSource nodup
    have endedIff := Options.exit_zero_iff_suits asked undumped shown named given sourceGiven
      readInput readSource nodup
    refine ⟨endedIff, ?_⟩
    intro ended
    rcases endedIff.mp ended with ⟨tokens, suits⟩
    rcases Options.rows_of_suits shown named suits with ⟨rows, lookedUp, sameLength, ownTexts⟩
    have found := (Options.findTokens_iff_decode given sourceGiven readInput readSource).mpr
      ⟨suits.decoded, rfl, rfl⟩
    have performed := Options.perform_of_lookUpRows asked undumped found lookedUp
    exact ⟨tokens, rows, suits.decoded, Options.run_of_perform performed, sameLength, ownTexts⟩

/-- The token file of a source suits it. -/
theorem show_accepts_what_suits_of_source : ∃ outcome data contents tokens,
    run tokenDirectory (showLine "t".toList "a.src".toList []) = .ok outcome ∧
      tokenDirectory.read (.ofText "t".toList) = .ok data ∧
      tokenDirectory.read (.ofText "a.src".toList) = .ok contents ∧
      (TokenFile.chunks data).Nodup ∧ outcome.ending = .exit 0 ∧
      TokenFile.Suits data contents .utf8 tokens := by
  have readTokens : tokenDirectory.read (.ofText "t".toList) =
      .ok [0, 0, 0, 0, 13, 0, 0, 0, 1, 18] := by
    rfl
  have nodup : (TokenFile.chunks [0, 0, 0, 0, 13, 0, 0, 0, 1, 18]).Nodup := by
    decide
  rcases show_accepts_what_suits parse_showLine_of_unset (resolve_of_unconfigured rfl) rfl rfl rfl
    rfl rfl readTokens Encoding.hasName_utf8.2 with ⟨outcome, ran, _, accepts⟩
  rw [run_tokenDirectory, Except.ok.injEq] at ran
  subst ran
  rcases (accepts [0x2b, 0x0a] rfl nodup).1.mp rfl with ⟨tokens, suits⟩
  exact ⟨_, _, _, tokens, run_tokenDirectory, readTokens, rfl, nodup, rfl, suits⟩

end

end Command

end Lexeme
