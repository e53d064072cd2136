import Lexeme.Proofs.Encoding.Ascii
import Lexeme.Proofs.Encoding.Name
import Lexeme.Proofs.Word.Factorisation

/-!
# Words of a factorisation

A scan gives the slices of the one factorisation of its data, decoded, each with the number of
bytes before it. It stops at the first run that is not text and says which one that is. A
literal is read as ASCII whatever the encoding, so only runs can stop a scan.
-/

namespace Lexeme

namespace Slice

/-- The text of a slice: a run is decoded, and anything else is plain ASCII. -/
def reading (encoding : Encoding) (slice : Bytes) : Except Malformed Text :=
  if IsRun slice then encoding.decode slice else Encoding.ascii.decode slice

/-- Whether words are those of slices the first of which starts at an offset: the readings of
the slices in order, up to the first run that is not text. -/
def Give (encoding : Encoding) (name : Text) (start : Int) (slices : List Bytes)
    (words : Partial (Int × Text)) : Prop :=
  ∃ good rest, slices = good ++ rest ∧ words.items.length = good.length ∧
    (∀ index (inside : index < good.length), ∃ text,
      reading encoding good[index] = .ok text ∧
        words.items[index]? = some (start + (good.take index).flatten.length, text)) ∧
    (rest = [] ∧ words.failure = none ∨
      ∃ run others malformed, rest = run :: others ∧ IsRun run ∧
        encoding.decode run = .error malformed ∧
        words.failure =
          some (.fault (.undecodable run (start + good.flatten.length) name malformed.defect)))

variable {encoding : Encoding} {name : Text} {start : Int}

theorem give_nil : Give encoding name start [] .done :=
  ⟨[], [], rfl, rfl, by simp, Or.inl ⟨rfl, rfl⟩⟩

theorem give_of_malformed {run : Bytes} {others : List Bytes} {malformed : Malformed}
    (isRun : IsRun run) (refused : encoding.decode run = .error malformed) :
    Give encoding name start (run :: others)
      (.failed (.fault (.undecodable run start name malformed.defect))) := by
  refine ⟨[], run :: others, rfl, rfl, by simp, Or.inr ?_⟩
  exact ⟨run, others, malformed, rfl, isRun, refused, by simp [Partial.failed]⟩

theorem give_cons {slice : Bytes} {slices : List Bytes} {text : Text}
    {words : Partial (Int × Text)} (read : reading encoding slice = .ok text)
    (give : Give encoding name (start + slice.length) slices words) :
    Give encoding name start (slice :: slices) (words.cons (start, text)) := by
  rcases give with ⟨good, rest, rfl, sameLength, items, ending⟩
  refine ⟨slice :: good, rest, rfl, by simp [sameLength], ?_, ?_⟩
  · intro index inside
    cases index with
    | zero => exact ⟨text, read, by simp⟩
    | succ index =>
        rcases items index (by simpa using inside) with ⟨next, nextRead, item⟩
        refine ⟨next, nextRead, ?_⟩
        rw [Partial.items_cons, List.getElem?_cons_succ, item]
        simp only [List.take_succ_cons, List.flatten_cons, List.length_append, Int.natCast_add,
          Int.add_assoc]
  · rcases ending with complete | ⟨run, others, malformed, rfl, isRun, refused, failure⟩
    · exact Or.inl complete
    · refine Or.inr ⟨run, others, malformed, rfl, isRun, refused, ?_⟩
      rw [Partial.failure_cons, failure]
      simp only [List.flatten_cons, List.length_append, Int.natCast_add, Int.add_assoc]

end Slice

namespace Piece

variable {encoding : Encoding} {name : Text}

theorem isAscii_mark {slice : Bytes} (proper : (mark slice).IsProper) : IsAscii slice := by
  rcases proper with ⟨byte, _, literal, rfl⟩ | rfl
  · simpa [IsAscii] using isAscii_of_literal literal
  · decide

theorem text_eq {piece : Piece} (proper : piece.IsProper) (named : encoding.HasName name)
    (offset : Int) :
    piece.text name offset = (Slice.reading encoding piece.data).mapError fun malformed =>
      .fault (.undecodable piece.data offset name malformed.defect) := by
  cases piece with
  | mark slice =>
      have read := Encoding.decode_eq_asciiText (by decide : Encoding.ascii ∈ Encoding.bytewise)
        (isAscii_mark proper)
      rw [Slice.reading, data, if_neg (not_isRun_of_mark proper), read]
      rfl
  | run slice =>
      have isRun : Slice.IsRun slice := proper
      rw [Slice.reading, data, if_pos isRun, text, Encoding.decodeNamed_eq named]
      cases encoding.decode slice <;> rfl

theorem give_words {pieces : List Piece} (proper : ∀ piece ∈ pieces, piece.IsProper)
    (named : encoding.HasName name) (start : Int) :
    Slice.Give encoding name start (pieces.map data) (words name start pieces) := by
  induction pieces generalizing start with
  | nil => exact Slice.give_nil
  | cons piece pieces inductionHypothesis =>
      rw [List.forall_mem_cons] at proper
      rw [words, text_eq proper.1 named]
      cases read : Slice.reading encoding piece.data with
      | ok text =>
          exact Slice.give_cons read (inductionHypothesis proper.2 (start + piece.data.length))
      | error malformed =>
          -- Only a run can be refused: literals are read as ASCII.
          cases piece with
          | mark slice =>
              rw [Slice.reading, data, if_neg (not_isRun_of_mark proper.1),
                Encoding.decode_eq_asciiText (by decide) (isAscii_mark proper.1)] at read
              contradiction
          | run slice =>
              have isRun : Slice.IsRun slice := proper.1
              rw [Slice.reading, data, if_pos isRun] at read
              exact Slice.give_of_malformed isRun read

/-- Words start inside the data, each behind the one before. -/
theorem offsets_words {pieces : List Piece} (proper : ∀ piece ∈ pieces, piece.IsProper)
    (name : Text) (start : Int) :
    (∀ word ∈ (words name start pieces).items,
      start ≤ word.1 ∧ word.1 < start + (pieces.flatMap data).length) ∧
      ((words name start pieces).items.map Prod.fst).Pairwise (· < ·) := by
  induction pieces generalizing start with
  | nil => simp [words, Partial.done]
  | cons piece pieces inductionHypothesis =>
      rw [List.forall_mem_cons] at proper
      have nonempty := List.length_pos_iff.mpr (data_ne_nil proper.1)
      rw [words]
      split
      · simp [Partial.failed]
      · next text _ =>
          rcases inductionHypothesis proper.2 (start + piece.data.length) with ⟨inside, increasing⟩
          simp only [Partial.items_cons, List.forall_mem_cons, List.map_cons, List.pairwise_cons,
            List.flatMap_cons, List.length_append, Int.natCast_add]
          refine ⟨⟨by omega, ?_⟩, ?_, increasing⟩
          · intro word wordMem
            have bounds := inside word wordMem
            omega
          · intro offset offsetMem
            rcases List.mem_map.mp offsetMem with ⟨word, wordMem, rfl⟩
            have bounds := inside word wordMem
            omega

end Piece

/-- Each byte string has exactly one factorisation into words, and a scan gives its slices. -/
theorem scan_gives_only_factorisation (source : Bytes) :
    ∃ slices, Slice.Factorises slices source ∧
      (∀ others, Slice.Factorises others source → others = slices) ∧
      ∀ (encoding : Encoding) (name : Text), encoding.HasName name →
        Slice.Give encoding name 0 slices (scan source name) ∧
          ((scan source name).items.map Prod.fst).Pairwise (· < ·) := by
  refine ⟨(Piece.cut source).map Piece.data, Piece.factorises_cut source, ?_, ?_⟩
  · intro others factorises
    exact Piece.eq_of_factorises factorises
  · intro encoding name named
    have proper := Piece.isProper_of_mem_cut source
    exact ⟨Piece.give_words proper named 0, (Piece.offsets_words proper name 0).2⟩

/-- A carriage return before a line break stays with its run, and a byte that is no text ends
the scan. -/
theorem scan_gives_only_factorisation_of_returns :
    Slice.Factorises [[0x66, 0x0d], [0x0d, 0x0a], [0x2b], [0xff], [0x0a]]
        [0x66, 0x0d, 0x0d, 0x0a, 0x2b, 0xff, 0x0a] ∧
      Encoding.utf8.HasName "utf-8".toList ∧
      Slice.Give .utf8 "utf-8".toList 0 [[0x66, 0x0d], [0x0d, 0x0a], [0x2b], [0xff], [0x0a]]
        (scan [0x66, 0x0d, 0x0d, 0x0a, 0x2b, 0xff, 0x0a] "utf-8".toList) := by
  have factorises : Slice.Factorises [[0x66, 0x0d], [0x0d, 0x0a], [0x2b], [0xff], [0x0a]]
      [0x66, 0x0d, 0x0d, 0x0a, 0x2b, 0xff, 0x0a] := by
    decide
  rcases scan_gives_only_factorisation [0x66, 0x0d, 0x0d, 0x0a, 0x2b, 0xff, 0x0a] with
    ⟨slices, _, unique, give⟩
  refine ⟨factorises, Encoding.hasName_utf8, ?_⟩
  rw [unique _ factorises]
  exact (give .utf8 "utf-8".toList Encoding.hasName_utf8).1

end Lexeme
