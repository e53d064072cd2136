import Lexeme.Editor.Span
import Lexeme.Proofs.Word.Whole

/-!
# Words of a document

The text of a document is UTF-8 data that can be decoded, so it is cut into words and the tokens
get these words back as their texts. What an editor has to know of them is that they follow each
other without a gap, that line feeds stand in line breaks only, and that no line break is torn.
-/

namespace Lexeme

theorem categoryOf_eq_newline_iff {word : Text} :
    categoryOf word = .newline ↔ word = ['\n'] ∨ word = ['\r', '\n'] := by
  have table : ∀ group ∈ cascade, ∀ entry ∈ group.literals, entry.2 = .newline →
      entry.1 = ['\n'] ∨ entry.1 = ['\r', '\n'] := by
    decide
  constructor
  · intro found
    have classified : categoryOf word ≠ .unclassified := by
      rw [found]
      decide
    rcases exists_literal classified with ⟨group, groupMem, entry, entryMem, rfl⟩
    apply table group groupMem entry entryMem
    rw [← categoryOf_literal group groupMem entry entryMem, found]
  · rintro (rfl | rfl) <;> rfl

namespace Piece

theorem eq_of_lineFeed_mem {piece : Piece} (proper : piece.IsProper)
    (feedMem : 0x0a ∈ piece.data) : piece.data = [0x0a] ∨ piece.data = Slice.lineBreak := by
  cases piece with
  | mark slice =>
      rcases proper with ⟨byte, _, _, rfl⟩ | lineBreak
      · left
        rw [data, List.mem_singleton] at feedMem
        rw [data, feedMem]
      · exact Or.inr lineBreak
  | run slice => exact absurd lineFeed_isLiteral (proper.2 0x0a feedMem)

/-- Between pieces no carriage return stands before a line feed. -/
theorem notTorn_of_neighbours {piece : Piece} {pieces : List Piece}
    (proper : ∀ member ∈ piece :: pieces, member.IsProper)
    (neighbours : ((piece :: pieces).map data).IsChain Slice.MayPrecede) :
    ¬(piece.data.getLast? = some 0x0d ∧ (pieces.flatMap data).head? = some 0x0a) := by
  rintro ⟨endsInReturn, startsWithFeed⟩
  rw [List.forall_mem_cons] at proper
  cases piece with
  | mark slice =>
      rcases proper.1 with ⟨byte, _, literal, rfl⟩ | rfl
      · obtain rfl : byte = 0x0d := by simpa [data] using endsInReturn
        exact carriageReturn_notLiteral literal
      · simp [data, Slice.lineBreak] at endsInReturn
  | run slice =>
      cases pieces with
      | nil => simp at startsWithFeed
      | cons next rest =>
          have nextProper := proper.2 next (by simp)
          have allowed := (List.isChain_cons_cons.mp neighbours).1 proper.1
          rw [List.flatMap_cons, List.head?_append_of_ne_nil _ (data_ne_nil nextProper)]
            at startsWithFeed
          rcases eq_of_lineFeed_mem nextProper (List.mem_of_mem_head? startsWithFeed) with
            isFeed | isLineBreak
          · exact allowed.2 ⟨endsInReturn, isFeed⟩
          · simp [isLineBreak, Slice.lineBreak] at startsWithFeed

end Piece

namespace Utf8

variable {text : Text}

theorem lineFeed_mem_encode (feedMem : '\n' ∈ text) : 0x0a ∈ encode text :=
  List.mem_flatMap.mpr ⟨'\n', feedMem, List.mem_singleton_self _⟩

theorem head?_encode_lineFeed (startsWithFeed : text.head? = some '\n') :
    (encode text).head? = some 0x0a := by
  cases text with
  | nil => contradiction
  | cons c rest =>
      rw [List.head?_cons, Option.some.injEq] at startsWithFeed
      rw [startsWithFeed]
      rfl

theorem getLast?_encode_carriageReturn (endsInReturn : text.getLast? = some '\r') :
    (encode text).getLast? = some 0x0d := by
  rcases List.getLast?_eq_some_iff.mp endsInReturn with ⟨before, rfl⟩
  rw [encode_append, List.getLast?_append]
  rfl

end Utf8

namespace Editor

/-- Whether tokens with their texts are words in a row, the first of which starts at an offset. -/
inductive IsRow : Nat → List (Token × Text) → Prop
  | nil {offset : Nat} : IsRow offset []
  | cons {offset : Nat} {token : Token} {text : Text} {rest : List (Token × Text)}
      (starts : token.offset = offset) (nonempty : text ≠ [])
      (lineBreak : token.category = .newline → text = ['\n'] ∨ text = ['\r', '\n'])
      (noFeed : token.category ≠ .newline → '\n' ∉ text)
      (notTorn : ¬(text.getLast? = some '\r' ∧ (rest.flatMap Prod.snd).head? = some '\n'))
      (others : IsRow (offset + (Utf8.encode text).length) rest) :
      IsRow offset ((token, text) :: rest)

/-- The tokens of words with the words as their texts. -/
def classified (words : List (Int × Text)) : List (Token × Text) :=
  words.map fun word => (Token.ofWord word.1 word.2, word.2)

theorem flatMap_snd_classified (words : List (Int × Text)) :
    (classified words).flatMap Prod.snd = words.flatMap Prod.snd := by
  rw [classified, List.flatMap_map]

theorem zip_classifyAll (words : List (Int × Text)) :
    (Token.classifyAll words).zip (words.map Prod.snd) = classified words :=
  List.zip_map'

theorem hasName_documentEncoding : Encoding.utf8.HasName documentEncoding :=
  Encoding.hasName_utf8

theorem isRow_words {pieces : List Piece} (proper : ∀ piece ∈ pieces, piece.IsProper)
    (neighbours : (pieces.map Piece.data).IsChain Slice.MayPrecede) {start : Nat}
    {items : List (Int × Text)}
    (scanned : Piece.words documentEncoding start pieces = ⟨items, none⟩) :
    IsRow start (classified items) := by
  induction pieces generalizing start items with
  | nil =>
      obtain rfl : items = [] := by simpa [Piece.words, Partial.done, eq_comm] using scanned
      exact .nil
  | cons piece pieces inductionHypothesis =>
      have notTorn := Piece.notTorn_of_neighbours proper neighbours
      rcases Piece.words_cons_eq scanned with ⟨text, others, read, scannedOthers, rfl⟩
      rw [List.forall_mem_cons] at proper
      have bytes : piece.data = Utf8.encode text := by
        rw [Piece.text_eq proper.1 hasName_documentEncoding,
          Piece.reading_data proper.1 (by decide)] at read
        exact Utf8.decode_eq_ok_iff.mp (Except.mapError_eq_ok_iff.mp read)
      have otherBytes : pieces.flatMap Piece.data = Utf8.encode (others.flatMap Prod.snd) := by
        apply Utf8.decode_eq_ok_iff.mp
        apply (Piece.decode_flatMap_data_eq_ok_iff proper.2 neighbours.tail
          hasName_documentEncoding rfl (start + piece.data.length)).mpr
        rw [scannedOthers]
        exact ⟨rfl, rfl⟩
      apply IsRow.cons rfl
      · rintro rfl
        exact Piece.data_ne_nil proper.1 bytes
      · exact categoryOf_eq_newline_iff.mp
      · intro notNewline feedMem
        apply notNewline
        apply categoryOf_eq_newline_iff.mpr
        have byteMem : 0x0a ∈ piece.data := by
          rw [bytes]
          exact Utf8.lineFeed_mem_encode feedMem
        rcases Piece.eq_of_lineFeed_mem proper.1 byteMem with isFeed | isLineBreak
        · exact Or.inl (Utf8.encode_injective (bytes.symm.trans isFeed))
        · exact Or.inr (Utf8.encode_injective (bytes.symm.trans isLineBreak))
      · rintro ⟨endsInReturn, startsWithFeed⟩
        apply notTorn
        rw [bytes, otherBytes]
        refine ⟨Utf8.getLast?_encode_carriageReturn endsInReturn, ?_⟩
        apply Utf8.head?_encode_lineFeed
        rwa [← flatMap_snd_classified]
      · apply inductionHypothesis proper.2 neighbours.tail
        rwa [Int.natCast_add, ← bytes]

/-- A document has tokens, whose texts are words in a row that make up the document. -/
theorem exists_row_of_document {document : Text}
    (addressable : ((Utf8.encode document).length : Int) ≤ Source.maxIndex) :
    ∃ items, scan (Utf8.encode document) documentEncoding = ⟨items, none⟩ ∧
      tokenTexts document = .ok (classified items) ∧ IsRow 0 (classified items) ∧
      (classified items).flatMap Prod.snd = document := by
  have decoded : Encoding.utf8.decode (Utf8.encode document) = .ok document :=
    Utf8.decode_eq_ok_iff.mpr rfl
  rcases (decode_eq_ok_iff_scan hasName_documentEncoding rfl).mp decoded with ⟨complete, joined⟩
  generalize scanned : scan (Utf8.encode document) documentEncoding = words at complete joined
  rcases words with ⟨items, failure⟩
  obtain rfl : failure = none := complete
  refine ⟨items, rfl, ?_, ?_, ?_⟩
  · have tokenized : tokenize (Utf8.encode document) documentEncoding =
        .ok (Token.classifyAll items) := by
      rw [tokenize_eq, scanned]
    have drawn := texts_of_tokenize (.ofBytes (Utf8.encode document)) hasName_documentEncoding
      (by decide) addressable tokenized
    simp only [Source.ofBytes, scanned, zip_classifyAll] at drawn
    rw [tokenTexts, tokenized]
    simp only [bind, Except.bind, Source.ofBytes, drawn]
  · apply isRow_words (Piece.isProper_of_mem_cut (Utf8.encode document))
      (Piece.neighbours_cut (Utf8.encode document))
    exact scanned
  · rw [flatMap_snd_classified, joined]

end Editor

end Lexeme
