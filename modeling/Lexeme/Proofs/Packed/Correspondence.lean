import Lexeme.Proofs.Packed.File
import Mathlib.Algebra.Group.Int.Defs

/-!
# Tokens and their records

Packing and unpacking undo each other. A draft has a record exactly if it is a token whose offset
fits into four bytes, and five bytes are a record exactly if the last of them is the ordinal of a
category. A draft without a record is refused for its label before the kind of its offset, and for
that before its range.
-/

namespace Lexeme

theorem BigEndian.decode_four (a b c d : UInt8) :
    decode [a, b, c, d] = a.toNat * 2 ^ 24 + b.toNat * 2 ^ 16 + c.toNat * 2 ^ 8 + d.toNat := by
  simp only [decode, List.foldl_cons, List.foldl_nil]
  omega

/-- Five bytes are a record if the last of them is the ordinal of a category. -/
theorem Token.exists_unpack_eq_ok_iff {data : Bytes} :
    (∃ token, unpack data = .ok token) ↔
      data.length = 5 ∧ ∃ ordinal, data.getLast? = some ordinal ∧ ordinal.toNat < 20 := by
  by_cases size : data.length = recordSize
  · rcases TokenFile.exists_concat_of_size size with ⟨high, ordinal, rfl, highSize⟩
    rw [TokenFile.unpack_ok_iff highSize, List.getLast?_concat]
    simp [highSize]
  · constructor
    · rintro ⟨token, unpacked⟩
      rw [(record_of_unpack unpacked).2] at size
      exact absurd token.length_record size
    · rintro ⟨five, _⟩
      exact absurd five size

namespace Draft

variable {draft : Draft} {data : Bytes}

theorem pack_eq_ok_iff :
    draft.pack = .ok data ↔
      ∃ token : Token, draft = token.toDraft ∧ token.IsPackable ∧ data = token.record := by
  constructor
  · intro packed
    rcases exists_token_of_pack packed with ⟨token, rfl, tokenPacked⟩
    exact ⟨token, rfl, Token.pack_eq_ok_iff.mp tokenPacked⟩
  · rintro ⟨token, rfl, packable, rfl⟩
    rw [pack_toDraft, Token.pack_of_isPackable packable]

/-- A draft has some data as its record exactly if the draft is what is read from the data. -/
theorem pack_eq_ok_iff_unpack :
    draft.pack = .ok data ↔ ∃ token, Token.unpack data = .ok token ∧ token.toDraft = draft := by
  simp only [pack_eq_ok_iff, Token.unpack_eq_ok_iff]
  constructor
  · rintro ⟨token, rfl, packable, rfl⟩
    exact ⟨token, ⟨packable, rfl⟩, rfl⟩
  · rintro ⟨token, ⟨packable, rfl⟩, rfl⟩
    exact ⟨token, rfl, packable, rfl⟩

theorem exists_pack_eq_ok_iff :
    (∃ record, draft.pack = .ok record) ↔
      ∃ n category, draft = ⟨.int n, .known category⟩ ∧ 0 ≤ n ∧ n < 2 ^ 32 := by
  simp only [pack_eq_ok_iff, Token.isPackable_iff]
  constructor
  · rintro ⟨_, ⟨n, category⟩, rfl, inRange, rfl⟩
    exact ⟨n, category, rfl, inRange⟩
  · rintro ⟨n, category, rfl, inRange⟩
    exact ⟨_, ⟨n, category⟩, rfl, inRange, rfl⟩

end Draft

/-- Packing is a bijection between the tokens whose offsets fit into four bytes and the strings of
five bytes that end in the ordinal of a category, and unpacking is its inverse. Any other draft is
refused, and so is any other data; five bytes without a category show the offset in front. -/
theorem tokens_and_records_correspond (draft : Draft) (data : Bytes) :
    ((∃ record, draft.pack = .ok record) ↔
      ∃ n category, draft = ⟨.int n, .known category⟩ ∧ 0 ≤ n ∧ n < 2 ^ 32) ∧
    (∀ failure, draft.pack = .error failure ↔
      ∃ fault, draft.IsRefusedFor fault ∧ failure = fault.raised) ∧
    (∀ record, draft.pack = .ok record →
      record.length = 5 ∧ ∃ token, Token.unpack record = .ok token ∧ token.toDraft = draft) ∧
    ((∃ token, Token.unpack data = .ok token) ↔
      data.length = 5 ∧ ∃ ordinal, data.getLast? = some ordinal ∧ ordinal.toNat < 20) ∧
    (∀ token, Token.unpack data = .ok token → token.toDraft.pack = .ok data) ∧
    (∀ a b c d ordinal, data = [a, b, c, d, ordinal] → 20 ≤ ordinal.toNat →
      ∃ offset : Nat,
        offset = a.toNat * 2 ^ 24 + b.toNat * 2 ^ 16 + c.toNat * 2 ^ 8 + d.toNat ∧
        Token.unpack data = .error (.unknownOrdinal data offset ordinal.toNat) ∧
        (Fault.unknownOrdinal data offset ordinal.toNat).diagnostic.offset = .int offset) := by
  refine ⟨Draft.exists_pack_eq_ok_iff, ?_, ?_, Token.exists_unpack_eq_ok_iff, ?_, ?_⟩
  · intro failure
    exact Draft.pack_eq_error_iff
  · intro record packed
    rcases Draft.pack_eq_ok_iff_unpack.mp packed with ⟨token, unpacked, same⟩
    refine ⟨?_, token, unpacked, same⟩
    rw [(Token.record_of_unpack unpacked).2, Token.length_record, recordSize]
  · intro token unpacked
    exact Draft.pack_eq_ok_iff_unpack.mpr ⟨token, unpacked, rfl⟩
  · rintro a b c d ordinal rfl unassigned
    refine ⟨BigEndian.decode [a, b, c, d], BigEndian.decode_four a b c d, ?_, rfl⟩
    exact (@TokenFile.unpack_eq_error_iff [a, b, c, d] rfl ordinal _).mpr ⟨unassigned, rfl⟩

/-- The largest offset has a record, a truth value and a text in place of a category have none, nor
have five bytes that end in the first ordinal that is not assigned. -/
theorem tokens_and_records_correspond_at_limits :
    (∃ record, Draft.pack ⟨.int 4294967295, .known .unclassified⟩ = .ok record ∧
      record.length = 5 ∧
      ∃ token, Token.unpack record = .ok token ∧
        token.toDraft = ⟨.int 4294967295, .known .unclassified⟩) ∧
    Draft.pack ⟨.bool true, .known .plus⟩ =
      .error (.fault (.offsetNotInteger (.bool true) .plus)) ∧
    Draft.pack ⟨.null, .other (.int 3)⟩ = .error (.fault (.notCategory .null (.int 3))) ∧
    Token.unpack [255, 255, 255, 255, 20] =
      .error (.unknownOrdinal [255, 255, 255, 255, 20] 4294967295 20) := by
  refine ⟨?_, ?_, ?_, ?_⟩
  · have atLimit := tokens_and_records_correspond ⟨.int 4294967295, .known .unclassified⟩ []
    rcases atLimit.1.mpr ⟨4294967295, .unclassified, rfl, by decide, by decide⟩ with
      ⟨record, packed⟩
    exact ⟨record, packed, atLimit.2.2.1 record packed⟩
  · apply ((tokens_and_records_correspond _ []).2.1 _).mpr
    exact ⟨_, .offsetNotInteger .plus nofun, rfl⟩
  · apply ((tokens_and_records_correspond _ []).2.1 _).mpr
    exact ⟨_, .notCategory .null (.int 3), rfl⟩
  · rcases (tokens_and_records_correspond ⟨.null, .known .plus⟩
      [255, 255, 255, 255, 20]).2.2.2.2.2 255 255 255 255 20 rfl (by decide) with
      ⟨offset, rfl, refused, _⟩
    exact refused

end Lexeme
