import Lexeme.Proofs.Encoding.Cut
import Lexeme.Proofs.Word.Recovery

/-!
# Words of a whole text

Source data is cut without a look at its encoding, yet no text is damaged. Between two pieces
there always is a literal on one side, so in an encoding that keeps ASCII the pieces can be
decoded exactly if the data can as a whole, and the words make up its text.
-/

namespace Lexeme

variable {encoding : Encoding} {name : Text} {text : Text}

namespace Piece

/-- Where a piece ends there is a literal on one side, or the data ends. -/
theorem isSafeCut_data {piece : Piece} {pieces : List Piece}
    (proper : ∀ member ∈ piece :: pieces, member.IsProper)
    (neighbours : ((piece :: pieces).map data).IsChain Slice.MayPrecede) :
    IsSafeCut piece.data (pieces.flatMap data) := by
  rw [List.forall_mem_cons] at proper
  cases piece with
  | mark slice =>
      left
      intro byte byteLast
      exact isAscii_mark proper.1 byte (List.mem_of_getLast? byteLast)
  | run slice =>
      right
      cases pieces with
      | nil => simp
      | cons next rest =>
          have nextProper := proper.2 next (by simp)
          cases next with
          | run others =>
              have allowed := (List.isChain_cons_cons.mp neighbours).1 proper.1
              exact absurd nextProper allowed.1
          | mark others =>
              rw [List.flatMap_cons, List.head?_append_of_ne_nil _ (data_ne_nil nextProper)]
              intro byte byteFirst
              exact isAscii_mark nextProper byte (List.mem_of_mem_head? byteFirst)

/-- The joined data of pieces can be decoded exactly if each of them can, and then the words are
the text. -/
theorem decode_flatMap_data_eq_ok_iff {pieces : List Piece}
    (proper : ∀ piece ∈ pieces, piece.IsProper)
    (neighbours : (pieces.map data).IsChain Slice.MayPrecede) (named : encoding.HasName name)
    (compatible : encoding.isAsciiCompatible = true) (start : Int) :
    encoding.decode (pieces.flatMap data) = .ok text ↔
      (words name start pieces).failure = none ∧
        (words name start pieces).items.flatMap Prod.snd = text := by
  induction pieces generalizing start text with
  | nil =>
      rw [List.flatMap_nil, Encoding.decode_nil]
      simp [words, Partial.done]
  | cons piece pieces inductionHypothesis =>
      have safe := isSafeCut_data proper neighbours
      rw [List.forall_mem_cons] at proper
      have bytewise := Encoding.bytewise_of_isAsciiCompatible compatible
      rw [List.flatMap_cons, Encoding.decode_append_eq_ok_iff compatible safe, words,
        text_eq proper.1 named, reading_data proper.1 bytewise]
      cases encoding.decode piece.data with
      | error malformed => simp [Except.mapError, Partial.failed]
      | ok first =>
          simp only [Except.mapError, Except.ok.injEq, Partial.failure_cons, Partial.items_cons,
            List.flatMap_cons,
            inductionHypothesis proper.2 neighbours.tail (start + piece.data.length)]
          constructor
          · rintro ⟨_, _, rfl, ⟨complete, rfl⟩, rfl⟩
            exact ⟨complete, rfl⟩
          · rintro ⟨complete, rfl⟩
            exact ⟨_, _, rfl, ⟨complete, rfl⟩, rfl⟩

end Piece

theorem decode_eq_ok_iff_scan {source : Bytes} (named : encoding.HasName name)
    (compatible : encoding.isAsciiCompatible = true) :
    encoding.decode source = .ok text ↔
      (scan source name).failure = none ∧ (scan source name).items.flatMap Prod.snd = text := by
  have whole := @Piece.decode_flatMap_data_eq_ok_iff encoding name text (Piece.cut source)
    (Piece.isProper_of_mem_cut source) (Piece.neighbours_cut source) named compatible 0
  rwa [Piece.flatMap_data_cut] at whole

/-- In each encoding that is accepted for source files and that data can be decoded with, a source
is cut into tokens exactly if it can be decoded as a whole. Then the words of the scan, and the
texts of the tokens, make up the whole text. The length of a byte string in memory never exceeds
the largest index. -/
theorem words_make_up_whole_text (handle : Source) (named : encoding.HasName name)
    (accepted : Encoding.checkName name = .ok name) :
    ((∃ tokens, tokenize handle.contents name = .ok tokens) ↔
      ∃ text, Encoding.decodeNamed name handle.contents = .ok text) ∧
    ∀ tokens text, tokenize handle.contents name = .ok tokens →
      Encoding.decodeNamed name handle.contents = .ok text →
        (scan handle.contents name).failure = none ∧
        (scan handle.contents name).items.flatMap Prod.snd = text ∧
        ((handle.contents.length : Int) ≤ Source.maxIndex →
          (handle.texts name tokens).1.failure = none ∧
          (handle.texts name tokens).1.items.flatMap Prod.snd = text) := by
  have compatible := Encoding.isAsciiCompatible_of_checkName named accepted
  have bytewise := Encoding.bytewise_of_isAsciiCompatible compatible
  simp only [Encoding.decodeNamed_eq named, Except.mapError_eq_ok_iff,
    decode_eq_ok_iff_scan named compatible, tokenize_eq_ok_iff]
  refine ⟨⟨?_, ?_⟩, ?_⟩
  · rintro ⟨_, complete, _⟩
    exact ⟨_, complete, rfl⟩
  · rintro ⟨_, complete, _⟩
    exact ⟨_, complete, rfl⟩
  · rintro tokens text ⟨complete, classified⟩ ⟨_, joined⟩
    refine ⟨complete, joined, ?_⟩
    intro addressable
    have tokenized := tokenize_eq_ok_iff.mpr ⟨complete, classified⟩
    have sameLength : (scan handle.contents name).items.length ≤ tokens.length := by
      rw [classified, Token.classifyAll, List.length_map]
    rw [texts_of_tokenize handle named bytewise addressable tokenized]
    refine ⟨rfl, ?_⟩
    rw [List.flatMap_def, List.map_snd_zip (by rwa [List.length_map]), ← List.flatMap_def, joined]

/-- A character of two bytes before a literal and a carriage return before a line break; the same
character cut off after its first byte. -/
theorem words_make_up_whole_text_of_accent :
    Encoding.utf8.HasName "utf-8".toList ∧ Encoding.checkName "utf-8".toList = .ok "utf-8".toList ∧
      (∃ tokens,
        tokenize [0xc3, 0xa9, 0x2b, 0x78, 0x0d, 0x0d, 0x0a] "utf-8".toList = .ok tokens ∧
        (scan [0xc3, 0xa9, 0x2b, 0x78, 0x0d, 0x0d, 0x0a] "utf-8".toList).items.flatMap Prod.snd =
          "é+x\r\r\n".toList ∧
        ((Source.ofBytes [0xc3, 0xa9, 0x2b, 0x78, 0x0d, 0x0d, 0x0a]).texts "utf-8".toList
          tokens).1.items.flatMap Prod.snd = "é+x\r\r\n".toList) ∧
      ¬∃ tokens, tokenize [0xc3, 0x2b, 0x78] "utf-8".toList = .ok tokens := by
  have accepted := Encoding.checkName_of_hasName Encoding.hasName_utf8 rfl
  have whole := words_make_up_whole_text (.ofBytes [0xc3, 0xa9, 0x2b, 0x78, 0x0d, 0x0d, 0x0a])
    Encoding.hasName_utf8 accepted
  have broken := words_make_up_whole_text (.ofBytes [0xc3, 0x2b, 0x78]) Encoding.hasName_utf8
    accepted
  have decoded : Encoding.decodeNamed "utf-8".toList [0xc3, 0xa9, 0x2b, 0x78, 0x0d, 0x0d, 0x0a] =
      .ok "é+x\r\r\n".toList := by
    rw [Encoding.decodeNamed_eq Encoding.hasName_utf8]
    rfl
  refine ⟨Encoding.hasName_utf8, accepted, ?_, ?_⟩
  · rcases whole.1.mpr ⟨_, decoded⟩ with ⟨tokens, tokenized⟩
    rcases whole.2 tokens _ tokenized decoded with ⟨_, joined, drawn⟩
    exact ⟨tokens, tokenized, joined, (drawn (by decide)).2⟩
  · intro tokenized
    rcases broken.1.mp tokenized with ⟨text, decodedBroken⟩
    rw [Encoding.decodeNamed_eq Encoding.hasName_utf8] at decodedBroken
    contradiction

end Lexeme
