import Lexeme.Proofs.Packed.Record

/-!
# Token files

A token file is its records in a row, and each sequence of tokens that fit has exactly one file.
The files are the byte strings of whole records each of which ends in the ordinal of a category.
Anything else is refused for what is wrong with it first, the length before any record.
-/

namespace Lexeme

namespace TokenFile

variable {tokens : List Token} {data : Bytes}

theorem encode_eq_ok_iff :
    encode tokens = .ok data ↔
      (∀ token ∈ tokens, token.IsPackable) ∧ data = (tokens.map Token.record).flatten := by
  rw [encode, Except.bind_eq_ok_iff]
  simp only [Token.mapM_pack_eq_ok_iff, pure, Except.pure, Except.ok.injEq]
  constructor
  · rintro ⟨_, ⟨packable, rfl⟩, rfl⟩
    exact ⟨packable, rfl⟩
  · rintro ⟨packable, rfl⟩
    exact ⟨_, ⟨packable, rfl⟩, rfl⟩

theorem chunks_append {piece : Bytes} (size : piece.length = recordSize) (rest : Bytes) :
    chunks (piece ++ rest) = piece :: chunks rest := by
  match piece, size with
  | [_, _, _, _, _], _ => rfl

theorem chunks_flatten {pieces : List Bytes}
    (sizes : ∀ piece ∈ pieces, piece.length = recordSize) : chunks pieces.flatten = pieces := by
  induction pieces with
  | nil => rfl
  | cons piece pieces inductionHypothesis =>
      rw [List.forall_mem_cons] at sizes
      rw [List.flatten_cons, chunks_append sizes.1, inductionHypothesis sizes.2]

theorem length_flatten {pieces : List Bytes}
    (sizes : ∀ piece ∈ pieces, piece.length = recordSize) :
    pieces.flatten.length = recordSize * pieces.length := by
  induction pieces with
  | nil => rfl
  | cons piece pieces inductionHypothesis =>
      rw [List.forall_mem_cons] at sizes
      rw [List.flatten_cons, List.length_append, sizes.1, inductionHypothesis sizes.2,
        List.length_cons, Nat.mul_succ, Nat.add_comm]

/-- Data of whole records is cut into these. -/
theorem chunks_of_whole (whole : data.length % recordSize = 0) :
    (chunks data).flatten = data ∧ ∀ piece ∈ chunks data, piece.length = recordSize := by
  simp only [recordSize] at whole ⊢
  fun_induction chunks data with
  | case1 a b c d e rest inductionHypothesis =>
      simp only [List.length_cons] at whole
      rcases inductionHypothesis (by omega) with ⟨joined, sizes⟩
      exact ⟨by simp [joined], List.forall_mem_cons.mpr ⟨rfl, sizes⟩⟩
  | case2 data tooShort =>
      rcases data with _ | ⟨a, _ | ⟨b, _ | ⟨c, _ | ⟨d, _ | ⟨e, rest⟩⟩⟩⟩⟩
      · simp
      · simp at whole
      · simp at whole
      · simp at whole
      · simp at whole
      · exact absurd rfl (tooShort a b c d e rest)

theorem records_eq_ok_iff {pieces : List Bytes} :
    records data = .ok pieces ↔
      data = pieces.flatten ∧ ∀ piece ∈ pieces, piece.length = recordSize := by
  rw [records]
  constructor
  · intro cut
    split at cut
    · next whole =>
        rw [Except.ok.injEq] at cut
        subst cut
        rcases chunks_of_whole whole with ⟨joined, sizes⟩
        exact ⟨joined.symm, sizes⟩
    · contradiction
  · rintro ⟨rfl, sizes⟩
    rw [length_flatten sizes, Nat.mul_mod_right, if_pos rfl, chunks_flatten sizes]

theorem records_flatten_record (tokens : List Token) :
    records (tokens.map Token.record).flatten = .ok (tokens.map Token.record) := by
  refine records_eq_ok_iff.mpr ⟨rfl, ?_⟩
  simp

/-- Reading a token file undoes writing it, and writing undoes reading. -/
theorem decode_eq_ok_iff : decode data = .ok tokens ↔ encode tokens = .ok data := by
  rw [decode, Except.bind_eq_ok_iff, encode_eq_ok_iff]
  simp only [Token.mapM_unpack_eq_ok_iff]
  constructor
  · rintro ⟨pieces, cut, packable, rfl⟩
    exact ⟨packable, (records_eq_ok_iff.mp cut).1⟩
  · rintro ⟨packable, rfl⟩
    exact ⟨_, records_flatten_record tokens, packable, rfl⟩

/-- Whether bytes are whole records each of which ends in the ordinal of a category. -/
structure IsWellFormed (data : Bytes) : Prop where
  whole : data.length % 5 = 0
  assigned : ∀ index (inside : index < data.length), index % 5 = 4 → data[index].toNat < 20

theorem isWellFormed_nil : IsWellFormed [] where
  whole := rfl
  assigned := nofun

theorem isWellFormed_append_iff {high rest : Bytes} (size : high.length = 4) (ordinal : UInt8) :
    IsWellFormed (high ++ [ordinal] ++ rest) ↔ ordinal.toNat < 20 ∧ IsWellFormed rest := by
  have recordLength : (high ++ [ordinal]).length = 5 := by simp [size]
  constructor
  · rintro ⟨whole, assigned⟩
    rw [List.length_append, recordLength] at whole
    refine ⟨?_, by omega, ?_⟩
    · have last := assigned 4 (by simp [size]) rfl
      rwa [List.getElem_append_left (by omega), List.getElem_append_right (by omega),
        List.getElem_singleton] at last
    · intro index inside isLast
      have later := assigned (5 + index) (by rw [List.length_append]; omega) (by omega)
      rw [List.getElem_append_right (by omega)] at later
      simpa only [recordLength, Nat.add_sub_cancel_left] using later
  · rintro ⟨ordinal_lt, whole, assigned⟩
    refine ⟨by rw [List.length_append]; omega, ?_⟩
    intro index inside isLast
    rw [List.length_append] at inside
    rcases Nat.lt_or_ge index 5 with first | later
    · obtain rfl : index = 4 := by omega
      rwa [List.getElem_append_left (by omega), List.getElem_append_right (by omega),
        List.getElem_singleton]
    · rw [List.getElem_append_right (by omega)]
      exact assigned _ (by omega) (by omega)

theorem exists_concat_of_size {piece : Bytes} (size : piece.length = recordSize) :
    ∃ high ordinal, piece = high ++ [ordinal] ∧ high.length = 4 := by
  match piece, size with
  | [a, b, c, d, ordinal], _ => exact ⟨[a, b, c, d], ordinal, rfl, rfl⟩

theorem unpack_ok_iff {high : Bytes} (size : high.length = 4) (ordinal : UInt8) :
    (∃ token, Token.unpack (high ++ [ordinal]) = .ok token) ↔ ordinal.toNat < 20 := by
  rw [Token.unpack_concat size]
  cases found : Category.ofOrdinal? ordinal.toNat with
  | none => simpa using Category.ofOrdinal?_eq_none_iff.mp found
  | some category =>
      have ordinal_lt := category.ordinal_lt
      rw [← Category.ofOrdinal?_eq_some_iff.mp found] at ordinal_lt
      simpa using ordinal_lt

theorem unpack_eq_error_iff {high : Bytes} (size : high.length = 4) (ordinal : UInt8)
    {fault : Fault} :
    Token.unpack (high ++ [ordinal]) = .error fault ↔
      20 ≤ ordinal.toNat ∧
        fault = .unknownOrdinal (high ++ [ordinal]) (BigEndian.decode high) ordinal.toNat := by
  rw [← Category.ofOrdinal?_eq_none_iff, Token.unpack_concat size]
  cases Category.ofOrdinal? ordinal.toNat with
  | none => simp [eq_comm]
  | some category => simp

/-- A row of records is well formed if each of them can be read. -/
theorem isWellFormed_flatten_iff {pieces : List Bytes}
    (sizes : ∀ piece ∈ pieces, piece.length = recordSize) :
    IsWellFormed pieces.flatten ↔ ∀ piece ∈ pieces, ∃ token, Token.unpack piece = .ok token := by
  induction pieces with
  | nil => simpa using isWellFormed_nil
  | cons piece pieces inductionHypothesis =>
      rw [List.forall_mem_cons] at sizes
      rcases exists_concat_of_size sizes.1 with ⟨high, ordinal, rfl, size⟩
      rw [List.flatten_cons, isWellFormed_append_iff size, inductionHypothesis sizes.2,
        List.forall_mem_cons, unpack_ok_iff size]

/-- What data is refused for: for the bytes behind its last whole record, if there are any, or else
for the first of its records that ends in no category's ordinal. -/
inductive IsRefusedFor : Bytes → Fault → Prop
  | partialRecord {whole trailing : Bytes} (nonempty : trailing ≠ [])
      (size : trailing.length = (whole ++ trailing).length % 5) :
      IsRefusedFor (whole ++ trailing) (.partialRecord (whole ++ trailing).length trailing)
  | unknownOrdinal {before high after : Bytes} {ordinal : UInt8} (good : IsWellFormed before)
      (size : high.length = 4) (unassigned : 20 ≤ ordinal.toNat) (whole : after.length % 5 = 0) :
      IsRefusedFor (before ++ (high ++ [ordinal]) ++ after)
        (.unknownOrdinal (high ++ [ordinal]) (BigEndian.decode high) ordinal.toNat)

variable {fault : Fault}

theorem isRefusedFor_of_records (refused : records data = .error fault) :
    IsRefusedFor data fault := by
  rw [records] at refused
  split at refused
  · contradiction
  · next incomplete =>
      rw [Except.error.injEq] at refused
      subst refused
      generalize place : data.length - data.length % recordSize = border
      rw [recordSize] at place incomplete
      have refusal := @IsRefusedFor.partialRecord (data.take border) (data.drop border)
      rw [List.take_append_drop] at refusal
      apply refusal
      · apply List.ne_nil_of_length_pos
        rw [List.length_drop]
        omega
      · rw [List.length_drop]
        omega

theorem isRefusedFor_of_unpack {pieces : List Bytes} (cut : records data = .ok pieces)
    (refused : pieces.mapM Token.unpack = .error fault) : IsRefusedFor data fault := by
  rcases records_eq_ok_iff.mp cut with ⟨rfl, sizes⟩
  rcases Except.mapM_eq_error_iff.mp refused with ⟨before, bad, after, rfl, good, failed⟩
  rw [List.forall_mem_append, List.forall_mem_cons] at sizes
  rcases sizes with ⟨beforeSizes, badSize, afterSizes⟩
  rcases exists_concat_of_size badSize with ⟨high, ordinal, rfl, size⟩
  rcases (unpack_eq_error_iff size ordinal).mp failed with ⟨unassigned, rfl⟩
  rw [List.flatten_append, List.flatten_cons, ← List.append_assoc]
  apply IsRefusedFor.unknownOrdinal _ size unassigned
  · rw [length_flatten afterSizes]
    exact Nat.mul_mod_right _ _
  · exact (isWellFormed_flatten_iff beforeSizes).mpr good

theorem decode_of_isRefusedFor (refused : IsRefusedFor data fault) :
    decode data = .error fault := by
  rw [decode, Except.bind_eq_error_iff]
  cases refused with
  | @partialRecord whole trailing nonempty size =>
      left
      have size_pos := List.length_pos_iff.mpr nonempty
      have incomplete : ¬(whole ++ trailing).length % recordSize = 0 := by
        rw [recordSize]
        omega
      have place : (whole ++ trailing).length - (whole ++ trailing).length % recordSize =
          whole.length := by
        rw [recordSize, ← size, List.length_append, Nat.add_sub_cancel]
      rw [records, if_neg incomplete, place, List.drop_left]
  | @unknownOrdinal before high after ordinal good size unassigned whole =>
      right
      rcases chunks_of_whole good.whole with ⟨beforeJoined, beforeSizes⟩
      rcases chunks_of_whole whole with ⟨afterJoined, afterSizes⟩
      refine ⟨chunks before ++ (high ++ [ordinal]) :: chunks after, ?_, ?_⟩
      · apply records_eq_ok_iff.mpr
        refine ⟨by simp [beforeJoined, afterJoined], ?_⟩
        rw [List.forall_mem_append, List.forall_mem_cons]
        exact ⟨beforeSizes, by simp [size, recordSize], afterSizes⟩
      · apply Except.mapM_eq_error_iff.mpr
        refine ⟨_, _, _, rfl, ?_, (unpack_eq_error_iff size ordinal).mpr ⟨unassigned, rfl⟩⟩
        apply (isWellFormed_flatten_iff beforeSizes).mp
        rwa [beforeJoined]

theorem decode_eq_error_iff : decode data = .error fault ↔ IsRefusedFor data fault := by
  refine ⟨?_, decode_of_isRefusedFor⟩
  rw [decode, Except.bind_eq_error_iff]
  rintro (refused | ⟨pieces, cut, refused⟩)
  · exact isRefusedFor_of_records refused
  · exact isRefusedFor_of_unpack cut refused

theorem exists_decode_eq_ok_iff : (∃ tokens, decode data = .ok tokens) ↔ IsWellFormed data := by
  simp only [decode, Except.bind_eq_ok_iff]
  constructor
  · rintro ⟨tokens, pieces, cut, unpacked⟩
    rcases records_eq_ok_iff.mp cut with ⟨rfl, sizes⟩
    apply (isWellFormed_flatten_iff sizes).mpr
    exact Except.exists_mapM_eq_ok_iff.mp ⟨tokens, unpacked⟩
  · intro good
    rcases chunks_of_whole good.whole with ⟨joined, sizes⟩
    rw [← joined, isWellFormed_flatten_iff sizes] at good
    rcases Except.exists_mapM_eq_ok_iff.mpr good with ⟨tokens, unpacked⟩
    exact ⟨tokens, chunks data, records_eq_ok_iff.mpr ⟨joined.symm, sizes⟩, unpacked⟩

end TokenFile

namespace Draft

@[simp]
theorem pack_toDraft (token : Token) : token.toDraft.pack = token.pack := by
  change (token.pack.bind fun record => .ok (token, record)).map Prod.snd = token.pack
  cases token.pack <;> rfl

theorem exists_token_of_pack {draft : Draft} {record : Bytes} (packed : draft.pack = .ok record) :
    ∃ token : Token, draft = token.toDraft ∧ token.pack = .ok record := by
  rcases draft with ⟨offset, label⟩
  cases label with
  | other value => contradiction
  | known category =>
      cases offset with
      | int n => exact ⟨⟨n, category⟩, rfl, (pack_toDraft ⟨n, category⟩).symm.trans packed⟩
      | _ => contradiction

theorem exists_tokens_of_pack {drafts : List Draft}
    (packed : ∀ draft ∈ drafts, ∃ record, draft.pack = .ok record) :
    ∃ tokens : List Token,
      drafts = tokens.map Token.toDraft ∧ ∀ token ∈ tokens, token.IsPackable := by
  induction drafts with
  | nil => exact ⟨[], rfl, by simp⟩
  | cons draft drafts inductionHypothesis =>
      rcases List.forall_mem_cons.mp packed with ⟨⟨record, headPacked⟩, othersPacked⟩
      rcases exists_token_of_pack headPacked with ⟨token, rfl, tokenPacked⟩
      rcases inductionHypothesis othersPacked with ⟨tokens, rfl, packable⟩
      exact ⟨token :: tokens, rfl,
        List.forall_mem_cons.mpr ⟨(Token.pack_eq_ok_iff.mp tokenPacked).1, packable⟩⟩

theorem packAll_toDraft (tokens : List Token) :
    packAll (tokens.map Token.toDraft) = TokenFile.encode tokens := by
  have packed : pack ∘ Token.toDraft = Token.pack := funext pack_toDraft
  rw [packAll, TokenFile.encode, List.mapM_map, packed]

/-- What a draft is refused for: the first thing that is wrong with its label, the kind of its
offset and the range of its offset. -/
inductive IsRefusedFor : Draft → Fault → Prop
  | notCategory (offset value : Datum) :
      IsRefusedFor ⟨offset, .other value⟩ (.notCategory offset value)
  | offsetNotInteger {offset : Datum} (category : Category)
      (notInteger : ∀ n, offset ≠ .int n) :
      IsRefusedFor ⟨offset, .known category⟩ (.offsetNotInteger offset category)
  | offsetOutOfRange {n : Int} (category : Category) (outside : n < 0 ∨ 2 ^ 32 ≤ n) :
      IsRefusedFor ⟨.int n, .known category⟩ (.offsetOutOfRange ⟨n, category⟩)

theorem exists_isRefusedFor_of_pack {draft : Draft} {failure : Failure}
    (refused : draft.pack = .error failure) :
    ∃ fault, draft.IsRefusedFor fault ∧ failure = fault.raised := by
  rcases draft with ⟨offset, label⟩
  cases label with
  | other value => exact ⟨_, .notCategory offset value, (Except.error.inj refused).symm⟩
  | known category =>
      cases offset with
      | int n =>
          have tokenRefused := (pack_toDraft ⟨n, category⟩).symm.trans refused
          rcases Token.pack_eq_error_iff.mp tokenRefused with ⟨outside, rfl⟩
          exact ⟨_, .offsetOutOfRange category outside, rfl⟩
      | _ => exact ⟨_, .offsetNotInteger category (by simp), (Except.error.inj refused).symm⟩

theorem pack_of_isRefusedFor {draft : Draft} {fault : Fault} (refused : draft.IsRefusedFor fault) :
    draft.pack = .error fault.raised := by
  cases refused with
  | notCategory offset value => rfl
  | @offsetNotInteger offset category notInteger =>
      cases offset with
      | int n => exact absurd rfl (notInteger n)
      | _ => rfl
  | @offsetOutOfRange n category outside =>
      refine (pack_toDraft ⟨n, category⟩).trans ?_
      exact Token.pack_eq_error_iff.mpr ⟨outside, rfl⟩

theorem pack_eq_error_iff {draft : Draft} {failure : Failure} :
    draft.pack = .error failure ↔ ∃ fault, draft.IsRefusedFor fault ∧ failure = fault.raised := by
  refine ⟨exists_isRefusedFor_of_pack, ?_⟩
  rintro ⟨fault, refused, rfl⟩
  exact pack_of_isRefusedFor refused

/-- A sequence is refused for what its first bad member is refused for. -/
theorem packAll_eq_error_iff {drafts : List Draft} {failure : Failure} :
    packAll drafts = .error failure ↔
      ∃ before bad after fault, drafts = before ++ bad :: after ∧
        (∀ draft ∈ before, ∃ record, draft.pack = .ok record) ∧
        bad.IsRefusedFor fault ∧ failure = fault.raised := by
  have mapped : packAll drafts = .error failure ↔ drafts.mapM pack = .error failure := by
    rw [packAll, Except.bind_eq_error_iff]
    simp [pure, Except.pure]
  rw [mapped, Except.mapM_eq_error_iff]
  simp only [pack_eq_error_iff, exists_and_left]

end Draft

/-- Token files and the sequences that fit into them correspond to each other. Data is read exactly
if it consists of whole records with assigned ordinals, otherwise it is refused for its length or
else for its first bad record. A sequence is refused for its first bad member. Reading the records
one by one, after cutting them apart, is reading the file. -/
theorem token_files_round_trip (drafts : List Draft) (data : Bytes) :
    ((∀ draft ∈ drafts, ∃ record, draft.pack = .ok record) →
      ∃ file tokens, Draft.packAll drafts = .ok file ∧ TokenFile.decode file = .ok tokens ∧
        tokens.map Token.toDraft = drafts) ∧
    (∀ tokens, TokenFile.decode data = .ok tokens →
      Draft.packAll (tokens.map Token.toDraft) = .ok data) ∧
    ((∃ tokens, TokenFile.decode data = .ok tokens) ↔ TokenFile.IsWellFormed data) ∧
    (∀ fault, TokenFile.decode data = .error fault ↔ TokenFile.IsRefusedFor data fault) ∧
    (∀ failure, Draft.packAll drafts = .error failure ↔
      ∃ before bad after fault, drafts = before ++ bad :: after ∧
        (∀ draft ∈ before, ∃ record, draft.pack = .ok record) ∧
        bad.IsRefusedFor fault ∧ failure = fault.raised) ∧
    (do let records ← TokenFile.records data
        records.mapM Token.unpack) = TokenFile.decode data ∧
    (∀ records, TokenFile.records data = .ok records → records.flatten = data) := by
  refine ⟨?_, ?_, TokenFile.exists_decode_eq_ok_iff, ?_, ?_, rfl, ?_⟩
  · intro packed
    rcases Draft.exists_tokens_of_pack packed with ⟨tokens, rfl, packable⟩
    have written := TokenFile.encode_eq_ok_iff.mpr ⟨packable, rfl⟩
    refine ⟨_, tokens, ?_, TokenFile.decode_eq_ok_iff.mpr written, rfl⟩
    rw [Draft.packAll_toDraft, written]
  · intro tokens read
    rw [Draft.packAll_toDraft]
    exact TokenFile.decode_eq_ok_iff.mp read
  · intro fault
    exact TokenFile.decode_eq_error_iff
  · intro failure
    exact Draft.packAll_eq_error_iff
  · intro records cut
    exact (TokenFile.records_eq_ok_iff.mp cut).1.symm

/-- Tokens out of order, one of them at the largest offset, come back from their file. Data with two
bad records is refused for the first of them, and with a byte more for that byte. -/
theorem token_files_round_trip_of_unsorted :
    (∃ file tokens,
      Draft.packAll [⟨.int 4294967295, .known .unclassified⟩, ⟨.int 3, .known .plus⟩] = .ok file ∧
        TokenFile.decode file = .ok tokens ∧
        tokens.map Token.toDraft =
          [⟨.int 4294967295, .known .unclassified⟩, ⟨.int 3, .known .plus⟩]) ∧
      TokenFile.decode [0, 0, 0, 1, 19, 0, 0, 2, 7, 20, 0, 0, 0, 0, 255] =
        .error (.unknownOrdinal [0, 0, 2, 7, 20] 519 20) ∧
      TokenFile.decode [0, 0, 0, 1, 19, 0, 0, 2, 7, 20, 0, 0, 0, 0, 255, 8] =
        .error (.partialRecord 16 [8]) := by
  refine ⟨?_, ?_, ?_⟩
  · have packable : ∀ draft ∈ [Token.mk 4294967295 .unclassified, ⟨3, .plus⟩].map Token.toDraft,
        ∃ record, draft.pack = .ok record := by
      rw [List.forall_mem_map]
      intro token tokenMem
      refine ⟨token.record, (Draft.pack_toDraft token).trans (Token.pack_of_isPackable ?_)⟩
      revert token
      simp [Token.IsPackable, Token.maxOffset]
    exact (token_files_round_trip _ []).1 packable
  · apply ((token_files_round_trip [] _).2.2.2.1 _).mpr
    exact @TokenFile.IsRefusedFor.unknownOrdinal [0, 0, 0, 1, 19] [0, 0, 2, 7] [0, 0, 0, 0, 255] 20
      ⟨rfl, by decide⟩ rfl (by decide) rfl
  · apply ((token_files_round_trip [] _).2.2.2.1 _).mpr
    exact @TokenFile.IsRefusedFor.partialRecord
      [0, 0, 0, 1, 19, 0, 0, 2, 7, 20, 0, 0, 0, 0, 255] [8] (by decide) rfl

/-- A token at the least offset without a written form is refused, but not for its offset, which
cannot be told. -/
theorem unwritable_offset_is_not_packed :
    Draft.packAll [⟨.int (10 ^ Numeral.maxDigits), .known .plus⟩] = .error .numberTooLong := by
  have refused : Draft.pack ⟨.int (10 ^ Numeral.maxDigits), .known .plus⟩ =
      .error .numberTooLong :=
    (Draft.pack_toDraft ⟨10 ^ Numeral.maxDigits, .plus⟩).trans
      (Token.pack_of_not_isWritable Numeral.not_isWritable_pow)
  rcases Draft.pack_eq_error_iff.mp refused with ⟨fault, refusedFor, reason⟩
  exact Draft.packAll_eq_error_iff.mpr ⟨[], _, [], fault, rfl, nofun, refusedFor, reason⟩

end Lexeme
