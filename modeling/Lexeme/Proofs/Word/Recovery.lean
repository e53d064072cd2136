import Lexeme.Proofs.Locate.Lookup
import Lexeme.Proofs.Word.Stream

/-!
# Words recovered from tokens

A token keeps its offset only, yet its word comes back from the sequence and the source: the
next token starts where the word ends. This holds for the encodings whose characters are made
of single bytes; there a literal decodes to itself.
-/

namespace Lexeme

variable {encoding : Encoding} {name : Text}

namespace Piece

theorem reading_data {piece : Piece} (proper : piece.IsProper)
    (bytewise : encoding ∈ Encoding.bytewise) :
    Slice.reading encoding piece.data = encoding.decode piece.data := by
  simp only [Slice.reading]
  cases piece with
  | mark slice =>
      have ascii := isAscii_mark proper
      rw [data, if_neg (not_isRun_of_mark proper), Encoding.decode_eq_asciiText bytewise ascii,
        Encoding.decode_eq_asciiText (by decide) ascii]
  | run slice => rw [if_pos (show Slice.IsRun (run slice).data from proper)]

/-- The bytes of a piece decode to its text, also as the span of a mark. -/
theorem decodeSpan_data {piece : Piece} (proper : piece.IsProper)
    (named : encoding.HasName name) (bytewise : encoding ∈ Encoding.bytewise) {offset : Int}
    {text : Text} (read : piece.text name offset = .ok text) (mark : Mark) :
    mark.decodeSpan name piece.data = .ok text := by
  rw [text_eq proper named, reading_data proper bytewise] at read
  rw [Mark.decodeSpan, Encoding.decodeNamed_eq named]
  cases decoded : encoding.decode piece.data with
  | error malformed =>
      rw [decoded] at read
      contradiction
  | ok decodedText =>
      rw [decoded] at read
      exact read

theorem words_cons_eq {piece : Piece} {pieces : List Piece} {start : Int}
    {items : List (Int × Text)}
    (scanned : words name start (piece :: pieces) = ⟨items, none⟩) :
    ∃ text others, piece.text name start = .ok text ∧
      words name (start + piece.data.length) pieces = ⟨others, none⟩ ∧
      items = (start, text) :: others := by
  rw [words] at scanned
  split at scanned
  · simp [Partial.failed] at scanned
  · next text read =>
      cases tail : words name (start + piece.data.length) pieces with
      | mk others failure =>
          simp only [tail, Partial.cons, Partial.mk.injEq] at scanned
          rcases scanned with ⟨rfl, rfl⟩
          exact ⟨text, others, read, rfl, rfl⟩

/-- The span of a piece's token ends where the next word starts, or with the source. -/
theorem span_piece {piece : Piece} {pieces : List Piece} (proper : piece.IsProper)
    {before : Bytes} {others : List (Int × Text)}
    (scanned : words name (before.length + piece.data.length) pieces = ⟨others, none⟩)
    {mark : Mark} (starts : mark.offset = before.length)
    (addressable : mark.offset ≤ Source.maxIndex)
    (othersAddressable : ∀ item ∈ others, item.1 ≤ Source.maxIndex) :
    mark.span (nextOffset (Token.classifyAll others).head?)
      (before ++ piece.data ++ pieces.flatMap data) = .ok piece.data := by
  cases pieces with
  | nil =>
      obtain rfl : others = [] := by simpa [words, Partial.done, eq_comm] using scanned
      rw [List.flatMap_nil, List.append_nil]
      exact Mark.span_last starts addressable (data_ne_nil proper)
  | cons next rest =>
      rcases words_cons_eq scanned with ⟨text, afterwards, _, _, rfl⟩
      have stop_le := othersAddressable _ (List.mem_cons_self ..)
      exact Mark.span_inside starts rfl stop_le

/-- Behind some bytes, the spans of the tokens of pieces have the words as their texts. -/
theorem readings_words {pieces : List Piece} (proper : ∀ piece ∈ pieces, piece.IsProper)
    (named : encoding.HasName name) (bytewise : encoding ∈ Encoding.bytewise) (before : Bytes)
    {items : List (Int × Text)} (scanned : words name before.length pieces = ⟨items, none⟩)
    (addressable : ∀ item ∈ items, item.1 ≤ Source.maxIndex) :
    Source.readings name (before ++ pieces.flatMap data) (Token.classifyAll items) =
      (items.map Prod.snd).map .ok := by
  induction pieces generalizing before items with
  | nil =>
      obtain rfl : items = [] := by simpa [words, Partial.done, eq_comm] using scanned
      rfl
  | cons piece pieces inductionHypothesis =>
      rw [List.forall_mem_cons] at proper
      rcases words_cons_eq scanned with ⟨text, others, read, scannedOthers, rfl⟩
      rw [List.forall_mem_cons] at addressable
      have head : (toMark (Token.ofWord before.length text)).textIn
          (nextOffset (Token.classifyAll others).head?) name
          (before ++ piece.data ++ pieces.flatMap data) = .ok text := by
        rw [Mark.textIn, span_piece proper.1 scannedOthers rfl addressable.1 addressable.2]
        exact decodeSpan_data proper.1 named bytewise read _
      have tail := inductionHypothesis proper.2 (before ++ piece.data)
        (by simpa using scannedOthers) addressable.2
      rw [List.flatMap_cons, ← List.append_assoc]
      exact congrArg₂ List.cons head tail

end Piece

theorem readings_of_tokenize {source : Bytes} {tokens : List Token}
    (named : encoding.HasName name) (bytewise : encoding ∈ Encoding.bytewise)
    (tokenized : tokenize source name = .ok tokens)
    (addressable : ∀ token ∈ tokens, token.offset ≤ Source.maxIndex) :
    Source.readings name source tokens = ((scan source name).items.map Prod.snd).map .ok := by
  rcases tokenize_eq_ok_iff.mp tokenized with ⟨complete, rfl⟩
  have scanned : scan source name = ⟨(scan source name).items, none⟩ := by rw [← complete]
  have readings := Piece.readings_words (Piece.isProper_of_mem_cut source) named bytewise []
    scanned ?_
  · rwa [Piece.flatMap_data_cut] at readings
  · intro item itemMem
    exact addressable _ (List.mem_map_of_mem itemMem)

/-- Drawn in order, the tokens of a source give its words back. -/
theorem texts_of_tokenize (handle : Source) {tokens : List Token}
    (named : encoding.HasName name) (bytewise : encoding ∈ Encoding.bytewise)
    (addressable : (handle.contents.length : Int) ≤ Source.maxIndex)
    (tokenized : tokenize handle.contents name = .ok tokens) :
    handle.texts name tokens =
      (⟨tokens.zip ((scan handle.contents name).items.map Prod.snd), none⟩, handle) := by
  have inside := (offsets_of_tokenize tokenized).1
  apply Source.texts_of_readings
  apply readings_of_tokenize named bytewise tokenized
  intro token tokenMem
  have bounds := inside token tokenMem
  omega

/-- A source that tokenizes gives its words back: drawn in order from all its tokens, looked up
among the tokens one by one, and looked up among their records if all offsets fit there. The
length of a byte string in memory never exceeds the largest index. -/
theorem words_come_back (handle : Source) {tokens : List Token}
    (named : encoding.HasName name) (bytewise : encoding ∈ Encoding.bytewise)
    (addressable : (handle.contents.length : Int) ≤ Source.maxIndex)
    (tokenized : tokenize handle.contents name = .ok tokens) :
    (scan handle.contents name).failure = none ∧
      (scan handle.contents name).items.length = tokens.length ∧
      handle.texts name tokens =
        (⟨tokens.zip ((scan handle.contents name).items.map Prod.snd), none⟩, handle) ∧
      ∀ index (inside : index < tokens.length), ∃ offset word,
        (scan handle.contents name).items[index]? = some (offset, word) ∧
          Token.classify offset word = .ok tokens[index] ∧
          handle.tokenText tokens[index] tokens name = (.ok word, handle) ∧
          (handle.contents.length ≤ 2 ^ 32 → ∃ records, tokens.mapM Token.pack = .ok records ∧
            handle.packedText tokens[index] records name = (.ok word, handle)) := by
  have offsets := offsets_of_tokenize tokenized
  have readings := readings_of_tokenize named bytewise tokenized (by
    intro token tokenMem
    have bounds := offsets.1 token tokenMem
    omega)
  rcases tokenize_eq_ok_iff.mp tokenized with ⟨complete, classified⟩
  have sameLength : tokens.length = (scan handle.contents name).items.length := by
    rw [classified, Token.classifyAll, List.length_map]
  refine ⟨complete, sameLength.symm, Source.texts_of_readings readings, ?_⟩
  intro index inside
  have found : tokens[index]? = some tokens[index] := List.getElem?_eq_getElem inside
  have item := List.getElem?_eq_getElem (sameLength ▸ inside)
  have read := Source.getElem?_readings name handle.contents tokens index
  rw [readings, List.getElem?_map, List.getElem?_map, item, found] at read
  have text := Option.some.inj read
  refine ⟨_, _, item, ?_, ?_, ?_⟩
  · have alone := classify_of_mem_scan addressable name _ (List.mem_of_getElem? item)
    refine alone.trans ?_
    simp [classified, Token.classifyAll]
  · rw [Source.tokenText_of_increasing handle name offsets.2 found]
    exact congrArg (·, handle) text.symm
  · intro small
    have packable : ∀ token ∈ tokens, token.IsPackable := by
      intro token tokenMem
      have bounds := offsets.1 token tokenMem
      have limit : Token.maxOffset = 0xffffffff := rfl
      exact ⟨bounds.1, by omega⟩
    refine ⟨tokens.map Token.record, Token.mapM_pack_eq_ok_iff.mpr ⟨packable, rfl⟩, ?_⟩
    rw [Source.packedText_of_increasing handle name offsets.2 packable found]
    exact congrArg (·, handle) text.symm

/-- A keyword, a literal, a run that ends in a carriage return, and a line break. -/
theorem words_come_back_of_returns :
    Encoding.utf8.HasName "utf-8".toList ∧ Encoding.utf8 ∈ Encoding.bytewise ∧
      tokenize [0x66, 0x75, 0x6e, 0x2b, 0x78, 0x0d, 0x0d, 0x0a] "utf-8".toList =
        .ok [⟨0, .function⟩, ⟨3, .plus⟩, ⟨4, .unclassified⟩, ⟨6, .newline⟩] ∧
      (Source.ofBytes [0x66, 0x75, 0x6e, 0x2b, 0x78, 0x0d, 0x0d, 0x0a]).texts "utf-8".toList
          [Token.mk 0 .function, ⟨3, .plus⟩, ⟨4, .unclassified⟩, ⟨6, .newline⟩] =
        (⟨[(⟨0, .function⟩, "fun".toList), (⟨3, .plus⟩, "+".toList),
          (⟨4, .unclassified⟩, "x\r".toList), (⟨6, .newline⟩, "\r\n".toList)], none⟩,
          .ofBytes [0x66, 0x75, 0x6e, 0x2b, 0x78, 0x0d, 0x0d, 0x0a]) := by
  have scanned : scan [0x66, 0x75, 0x6e, 0x2b, 0x78, 0x0d, 0x0d, 0x0a] "utf-8".toList =
      ⟨[(0, "fun".toList), (3, "+".toList), (4, "x\r".toList), (6, "\r\n".toList)], none⟩ := by
    have cut : Piece.cut [0x66, 0x75, 0x6e, 0x2b, 0x78, 0x0d, 0x0d, 0x0a] =
        [.run [0x66, 0x75, 0x6e], .mark [0x2b], .run [0x78, 0x0d], .mark [0x0d, 0x0a]] := rfl
    rw [scan, cut]
    simp only [Piece.words, Piece.text, Encoding.decodeNamed_eq Encoding.hasName_utf8]
    rfl
  have tokenized : tokenize [0x66, 0x75, 0x6e, 0x2b, 0x78, 0x0d, 0x0d, 0x0a] "utf-8".toList =
      .ok [⟨0, .function⟩, ⟨3, .plus⟩, ⟨4, .unclassified⟩, ⟨6, .newline⟩] := by
    rw [tokenize, scanned]
    rfl
  rcases words_come_back (.ofBytes [0x66, 0x75, 0x6e, 0x2b, 0x78, 0x0d, 0x0d, 0x0a])
    Encoding.hasName_utf8 (by decide) (by decide) tokenized with ⟨_, _, drawn, _⟩
  have words : (scan (Source.ofBytes [0x66, 0x75, 0x6e, 0x2b, 0x78, 0x0d, 0x0d, 0x0a]).contents
      "utf-8".toList).items.map Prod.snd =
        ["fun".toList, "+".toList, "x\r".toList, "\r\n".toList] := by
    rw [Source.ofBytes, scanned]
    rfl
  refine ⟨Encoding.hasName_utf8, by decide, tokenized, ?_⟩
  rw [drawn, words]
  rfl

end Lexeme
