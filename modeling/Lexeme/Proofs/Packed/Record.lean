import Lexeme.Packed.Record
import Lexeme.Proofs.Except
import Lexeme.Proofs.Text.Numeral
import Mathlib.Data.List.Induction

/-!
# Records of tokens

A token whose offset fits into four bytes has a record, from which it is read back. Records
compare byte by byte as the pairs of offset and ordinal do, so a sequence of tokens and the
sequence of its records are searched alike.
-/

namespace Lexeme

/-- Lists of one length that end in one more element each are compared there only if what
comes before is the same. -/
theorem concat_lt_concat_iff {first second : Bytes} (sameLength : first.length = second.length)
    (x y : UInt8) : first ++ [x] < second ++ [y] ↔ first < second ∨ first = second ∧ x < y := by
  induction first generalizing second with
  | nil =>
      obtain rfl : second = [] := List.length_eq_zero_iff.mp sameLength.symm
      simp [List.cons_lt_cons_iff]
  | cons head tail inductionHypothesis =>
      cases second with
      | nil => simp at sameLength
      | cons other rest =>
          simp only [List.length_cons, Nat.add_right_cancel_iff] at sameLength
          simp only [List.cons_append, List.cons_lt_cons_iff, inductionHypothesis sameLength,
            List.cons.injEq]
          grind

namespace Category

theorem ordinal_getElem_all :
    ∀ index (inside : index < all.length), all[index].ordinal = index := by
  decide

theorem ofOrdinal?_eq_some_iff {ordinal : Nat} {category : Category} :
    ofOrdinal? ordinal = some category ↔ ordinal = category.ordinal := by
  constructor
  · intro found
    rcases List.getElem?_eq_some_iff.mp found with ⟨inside, rfl⟩
    exact (ordinal_getElem_all ordinal inside).symm
  · rintro rfl
    exact ofOrdinal?_ordinal category

theorem ofOrdinal?_eq_none_iff {ordinal : Nat} : ofOrdinal? ordinal = none ↔ 20 ≤ ordinal :=
  List.getElem?_eq_none_iff

end Category

namespace BigEndian

@[simp]
theorem length_encode (width n : Nat) : (encode width n).length = width := by
  induction width generalizing n with
  | zero => rfl
  | succ width inductionHypothesis => simp [encode, inductionHypothesis]

theorem decode_concat (data : Bytes) (byte : UInt8) :
    decode (data ++ [byte]) = decode data * 256 + byte.toNat := by
  simp [decode]

theorem decode_encode {width n : Nat} (fits : n < 256 ^ width) :
    decode (encode width n) = n := by
  induction width generalizing n with
  | zero =>
      obtain rfl : n = 0 := by simpa using fits
      rfl
  | succ width inductionHypothesis =>
      have quotientFits : n / 256 < 256 ^ width := by omega
      have digit : (UInt8.ofNat (n % 256)).toNat = n % 256 := by simp
      rw [encode, decode_concat, inductionHypothesis quotientFits, digit]
      omega

theorem encode_decode (data : Bytes) : encode data.length (decode data) = data := by
  induction data using List.reverseRecOn with
  | nil => rfl
  | append_singleton data byte inductionHypothesis =>
      have byte_lt := byte.toNat_lt
      have quotient : (decode data * 256 + byte.toNat) / 256 = decode data := by omega
      have digit : (decode data * 256 + byte.toNat) % 256 = byte.toNat := by omega
      rw [List.length_append, List.length_singleton, encode, decode_concat, quotient, digit,
        inductionHypothesis, UInt8.ofNat_toNat]

theorem decode_lt (data : Bytes) : decode data < 256 ^ data.length := by
  induction data using List.reverseRecOn with
  | nil => simp [decode]
  | append_singleton data byte inductionHypothesis =>
      have byte_lt := byte.toNat_lt
      rw [List.length_append, List.length_singleton, Nat.pow_succ, decode_concat]
      omega

theorem encode_injective {width m n : Nat} (m_lt : m < 256 ^ width) (n_lt : n < 256 ^ width)
    (same : encode width m = encode width n) : m = n := by
  rw [← decode_encode m_lt, same, decode_encode n_lt]

theorem encode_lt_encode_iff {width m n : Nat} (m_lt : m < 256 ^ width)
    (n_lt : n < 256 ^ width) : encode width m < encode width n ↔ m < n := by
  induction width generalizing m n with
  | zero =>
      have m_eq : m = 0 := by simpa using m_lt
      have n_eq : n = 0 := by simpa using n_lt
      subst m_eq n_eq
      simp [encode]
  | succ width inductionHypothesis =>
      have m_div_lt : m / 256 < 256 ^ width := by omega
      have n_div_lt : n / 256 < 256 ^ width := by omega
      have digits : UInt8.ofNat (m % 256) < UInt8.ofNat (n % 256) ↔ m % 256 < n % 256 := by
        simp [UInt8.lt_iff_toNat_lt]
      have leading : encode width (m / 256) = encode width (n / 256) ↔ m / 256 = n / 256 :=
        ⟨encode_injective m_div_lt n_div_lt, congrArg (encode width)⟩
      rw [encode, encode, concat_lt_concat_iff (by simp), inductionHypothesis m_div_lt n_div_lt,
        leading, digits]
      omega

end BigEndian

namespace Token

/-- Whether a token file can hold a token. -/
def IsPackable (token : Token) : Prop :=
  0 ≤ token.offset ∧ token.offset ≤ maxOffset

def code (token : Token) : Nat :=
  token.offset.toNat * 256 + token.category.ordinal

def record (token : Token) : Bytes :=
  BigEndian.encode recordSize token.code

@[simp]
theorem length_record (token : Token) : token.record.length = recordSize :=
  BigEndian.length_encode recordSize token.code

theorem pack_eq_ok_iff {token : Token} {data : Bytes} :
    token.pack = .ok data ↔ token.IsPackable ∧ data = token.record := by
  simp only [pack]
  split
  · rename_i fits
    simp only [Except.ok.injEq]
    exact ⟨fun same => ⟨fits, same.symm⟩, fun packed => packed.2.symm⟩
  · rename_i misfits
    exact ⟨fun absurdity => by simp at absurdity, fun packed => absurd packed.1 misfits⟩

theorem pack_of_isPackable {token : Token} (packable : token.IsPackable) :
    token.pack = .ok token.record :=
  pack_eq_ok_iff.mpr ⟨packable, rfl⟩

theorem isPackable_iff {token : Token} :
    token.IsPackable ↔ 0 ≤ token.offset ∧ token.offset < 2 ^ 32 := by
  simp only [IsPackable, maxOffset]
  omega

theorem pack_eq_error_iff {token : Token} {failure : Failure} :
    token.pack = .error failure ↔
      (token.offset < 0 ∨ 2 ^ 32 ≤ token.offset) ∧
        failure = (Fault.offsetOutOfRange token).raised := by
  have misfits_iff : ¬token.IsPackable ↔ token.offset < 0 ∨ 2 ^ 32 ≤ token.offset := by
    rw [isPackable_iff]
    omega
  rw [← misfits_iff]
  constructor
  · intro refused
    have misfits : ¬token.IsPackable := by
      intro packable
      rw [pack_of_isPackable packable] at refused
      contradiction
    have reason : token.pack = .error (Fault.offsetOutOfRange token).raised := if_neg misfits
    rw [reason] at refused
    exact ⟨misfits, (Except.error.inj refused).symm⟩
  · rintro ⟨misfits, rfl⟩
    exact if_neg misfits

theorem IsPackable.isWritable {token : Token} (packable : token.IsPackable) :
    Numeral.IsWritable token.offset := by
  rw [isPackable_iff] at packable
  exact Numeral.isWritable_of_le (by omega) (by omega)

/-- That an offset does not fit has to be told with the offset. -/
theorem pack_of_not_isWritable {token : Token} (long : ¬Numeral.IsWritable token.offset) :
    token.pack = .error .numberTooLong := by
  have untellable : ¬(Fault.offsetOutOfRange token).IsTellable := by
    simpa [Fault.IsTellable, Fault.shown] using long
  apply pack_eq_error_iff.mpr
  refine ⟨?_, by rw [Fault.raised, if_neg untellable]⟩
  apply Classical.byContradiction
  intro inside
  exact long (isPackable_iff.mpr (by omega)).isWritable

theorem code_lt {token : Token} (packable : token.IsPackable) : token.code < 256 ^ recordSize := by
  have offset_le := packable.2
  have ordinal_lt := token.category.ordinal_lt
  simp only [maxOffset] at offset_le
  simp only [code, recordSize]
  omega

theorem code_lt_code_iff {token other : Token} (packable : token.IsPackable)
    (otherPackable : other.IsPackable) :
    token.code < other.code ↔
      token.offset < other.offset ∨
        token.offset = other.offset ∧ token.category.ordinal < other.category.ordinal := by
  have offset_nonneg := packable.1
  have otherOffset_nonneg := otherPackable.1
  have ordinal_lt := token.category.ordinal_lt
  have otherOrdinal_lt := other.category.ordinal_lt
  simp only [code]
  omega

/-- Records compare as the pairs of offset and ordinal do. -/
theorem record_lt_record_iff {token other : Token} (packable : token.IsPackable)
    (otherPackable : other.IsPackable) :
    token.record < other.record ↔
      token.offset < other.offset ∨
        token.offset = other.offset ∧ token.category.ordinal < other.category.ordinal := by
  rw [← code_lt_code_iff packable otherPackable]
  exact BigEndian.encode_lt_encode_iff (code_lt packable) (code_lt otherPackable)

theorem unpack_record {token : Token} (packable : token.IsPackable) :
    unpack token.record = .ok token := by
  have ordinal_lt := token.category.ordinal_lt
  have low : token.code % 256 = token.category.ordinal := by
    simp only [code]
    omega
  have high : ((token.code / 256 : Nat) : Int) = token.offset := by
    have offset_nonneg := packable.1
    simp only [code]
    omega
  simp only [unpack]
  rw [if_pos token.length_record]
  simp only [record, BigEndian.decode_encode (code_lt packable), low, high,
    Category.ofOrdinal?_ordinal]

/-- The last byte of a record is read as an ordinal, the other four as the offset. -/
theorem unpack_concat {high : Bytes} (size : high.length = 4) (ordinal : UInt8) :
    unpack (high ++ [ordinal]) = match Category.ofOrdinal? ordinal.toNat with
      | some category => .ok ⟨BigEndian.decode high, category⟩
      | none =>
        .error (.unknownOrdinal (high ++ [ordinal]) (BigEndian.decode high) ordinal.toNat) := by
  have ordinal_lt := ordinal.toNat_lt
  have low : (BigEndian.decode high * 256 + ordinal.toNat) % 256 = ordinal.toNat := by omega
  have rest : (BigEndian.decode high * 256 + ordinal.toNat) / 256 = BigEndian.decode high := by
    omega
  have whole : (high ++ [ordinal]).length = recordSize := by simp [size, recordSize]
  cases found : Category.ofOrdinal? ordinal.toNat with
  | none => simp only [unpack, if_pos whole, BigEndian.decode_concat, low, rest, found]
  | some category => simp only [unpack, if_pos whole, BigEndian.decode_concat, low, rest, found]

theorem record_of_unpack {data : Bytes} {token : Token} (unpacked : unpack data = .ok token) :
    token.IsPackable ∧ data = token.record := by
  simp only [unpack] at unpacked
  split at unpacked
  · next size =>
      split at unpacked
      · next category found =>
          rw [Except.ok.injEq] at unpacked
          subst unpacked
          have bound := BigEndian.decode_lt data
          have code_eq : code ⟨(BigEndian.decode data / 256 : Nat), category⟩ =
              BigEndian.decode data := by
            rw [code, ← Category.ofOrdinal?_eq_some_iff.mp found, Int.toNat_natCast]
            omega
          rw [record, code_eq, ← size, BigEndian.encode_decode]
          rw [size, recordSize] at bound
          refine ⟨⟨Int.natCast_nonneg _, ?_⟩, rfl⟩
          simp only [maxOffset]
          omega
      · contradiction
  · contradiction

theorem unpack_eq_ok_iff {data : Bytes} {token : Token} :
    unpack data = .ok token ↔ token.IsPackable ∧ data = token.record := by
  refine ⟨record_of_unpack, ?_⟩
  rintro ⟨packable, rfl⟩
  exact unpack_record packable

theorem record_injective {token other : Token} (packable : token.IsPackable)
    (otherPackable : other.IsPackable) (same : token.record = other.record) : token = other := by
  have read := unpack_record packable
  rw [same, unpack_record otherPackable] at read
  exact (Except.ok.inj read).symm

/-- The records of a sequence are there if a token file can hold each of its tokens. -/
theorem mapM_pack_eq_ok_iff {tokens : List Token} {records : List Bytes} :
    tokens.mapM pack = .ok records ↔
      (∀ token ∈ tokens, token.IsPackable) ∧ records = tokens.map record := by
  have only : ∀ token record, pack token = .ok record → record = token.record :=
    fun _ _ packed => (pack_eq_ok_iff.mp packed).2
  simp only [Except.mapM_eq_ok_iff_of_known only, pack_eq_ok_iff, and_true]

theorem mapM_unpack_eq_ok_iff {records : List Bytes} {tokens : List Token} :
    records.mapM unpack = .ok tokens ↔
      (∀ token ∈ tokens, token.IsPackable) ∧ records = tokens.map record := by
  induction records generalizing tokens with
  | nil =>
      simp only [List.mapM_nil, pure, Except.pure, Except.ok.injEq, List.nil_eq,
        List.map_eq_nil_iff]
      constructor
      · rintro rfl
        exact ⟨by simp, rfl⟩
      · rintro ⟨_, rfl⟩
        rfl
  | cons data records inductionHypothesis =>
      rw [Except.mapM_cons_eq_ok_iff]
      simp only [unpack_eq_ok_iff, inductionHypothesis]
      constructor
      · rintro ⟨token, others, ⟨packable, rfl⟩, ⟨othersPackable, rfl⟩, rfl⟩
        exact ⟨List.forall_mem_cons.mpr ⟨packable, othersPackable⟩, rfl⟩
      · rintro ⟨packable, split⟩
        cases tokens with
        | nil => contradiction
        | cons token others =>
            rw [List.map_cons, List.cons.injEq] at split
            rcases List.forall_mem_cons.mp packable with ⟨packable, othersPackable⟩
            exact ⟨token, others, ⟨packable, split.1⟩, ⟨othersPackable, split.2⟩, rfl⟩

end Token

end Lexeme
