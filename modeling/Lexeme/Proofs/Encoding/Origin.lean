import Lexeme.Proofs.Encoding.Ascii
import Lexeme.Proofs.Encoding.Cut

/-!
# Where ASCII characters come from

An ASCII character in a decoded text was a byte of the data, in every encoding: no sequence of
several bytes and no pair of units stands for one. An encoding that keeps ASCII decodes nothing
but ASCII bytes to a text of ASCII characters.
-/

namespace Lexeme

variable {data : Bytes} {text : Text} {c : Char}

/-- The bytes of a text of ASCII characters. -/
def asciiBytes (text : Text) : Bytes :=
  text.map fun c => UInt8.ofNat c.toNat

theorem asciiText_asciiBytes (ascii : ∀ c ∈ text, c.toNat < 0x80) :
    asciiText (asciiBytes text) = text := by
  have same : ∀ c ∈ text, Char.ofNat (UInt8.ofNat c.toNat).toNat = id c := by
    intro c cMem
    have isByte : c.toNat < 256 := Nat.lt_trans (ascii c cMem) (by decide)
    rw [UInt8.toNat_ofNat_of_lt' isByte, Char.ofNat_toNat, id]
  rw [asciiText, asciiBytes, List.map_map]
  exact (List.map_congr_left same).trans (List.map_id text)

theorem asciiBytes_asciiText (data : Bytes) : asciiBytes (asciiText data) = data := by
  have same : ∀ byte ∈ data, UInt8.ofNat (Char.ofNat byte.toNat).toNat = id byte := by
    intro byte _
    rw [toNat_ofNat_byte, UInt8.ofNat_toNat, id]
  rw [asciiText, asciiBytes, List.map_map]
  exact (List.map_congr_left same).trans (List.map_id data)

namespace Utf8

theorem encodeChar_of_ascii (ascii : c.toNat < 0x80) : encodeChar c = [UInt8.ofNat c.toNat] := by
  simp only [encodeChar, if_pos ascii]

theorem byte_mem_encode (cMem : c ∈ text) (ascii : c.toNat < 0x80) :
    UInt8.ofNat c.toNat ∈ encode text := by
  apply List.mem_flatMap.mpr
  refine ⟨c, cMem, ?_⟩
  rw [encodeChar_of_ascii ascii]
  exact List.mem_singleton_self _

theorem isAscii_encode (ascii : ∀ c ∈ text, c.toNat < 0x80) : IsAscii (encode text) := by
  intro byte byteMem
  rcases List.mem_flatMap.mp byteMem with ⟨c, cMem, byteOfChar⟩
  have c_lt := ascii c cMem
  rw [encodeChar_of_ascii c_lt, List.mem_singleton] at byteOfChar
  rw [byteOfChar, UInt8.toNat_ofNat_of_lt' (Nat.lt_trans c_lt (by decide))]
  exact c_lt

theorem mem_of_mem_dropMark {byte : UInt8} (byteMem : byte ∈ dropMark data) : byte ∈ data := by
  simp only [dropMark] at byteMem
  split at byteMem
  · simp [byteMem]
  · exact byteMem

end Utf8

namespace SingleByte

variable {table : UInt8 → Option Char} {defect : Defect} {position : Nat}

/-- Whether only ASCII bytes stand for ASCII characters, each for the one of its number. -/
def KeepsAscii (table : UInt8 → Option Char) : Prop :=
  ∀ byte c, table byte = some c → c.toNat < 0x80 → byte = UInt8.ofNat c.toNat

theorem ofNat_toNat_ofNat (byte : UInt8) : byte = UInt8.ofNat (Char.ofNat byte.toNat).toNat := by
  rw [toNat_ofNat_byte, UInt8.ofNat_toNat]

theorem keepsAscii_ascii : KeepsAscii ascii? := by
  intro byte c found _
  simp only [ascii?] at found
  split at found
  · rw [← Option.some.inj found]
    exact ofNat_toNat_ofNat byte
  · contradiction

theorem keepsAscii_latin1 : KeepsAscii latin1? := by
  intro byte c found _
  rw [← Option.some.inj found]
  exact ofNat_toNat_ofNat byte

theorem windowsRow_high : ∀ code ∈ windowsRow, code ≠ 0 → 0x80 ≤ (Char.ofNat code).toNat := by
  decide

theorem keepsAscii_cp1252 : KeepsAscii cp1252? := by
  intro byte c found c_lt
  simp only [cp1252?] at found
  split at found
  · split at found
    · cases found
    · cases found
    · next code notZero inRow =>
        have high := windowsRow_high code (List.mem_of_getElem? inRow) notZero
        rw [← Option.some.inj found] at c_lt
        omega
  · rw [← Option.some.inj found]
    exact ofNat_toNat_ofNat byte

section

variable (keeps : KeepsAscii table) (decoded : decodeFrom table defect position data = .ok text)
include keeps decoded

theorem byte_mem_of_decodeFrom (cMem : c ∈ text) (ascii : c.toNat < 0x80) :
    UInt8.ofNat c.toNat ∈ data := by
  have mapped : some c ∈ data.map table := by
    rw [decodeFrom_eq_ok_iff.mp decoded]
    exact List.mem_map_of_mem cMem
  rcases List.mem_map.mp mapped with ⟨byte, byteMem, found⟩
  rw [← keeps byte c found ascii]
  exact byteMem

theorem isAscii_of_decodeFrom (ascii : ∀ c ∈ text, c.toNat < 0x80) : IsAscii data := by
  intro byte byteMem
  have mapped : table byte ∈ text.map some := by
    rw [← decodeFrom_eq_ok_iff.mp decoded]
    exact List.mem_map_of_mem byteMem
  rcases List.mem_map.mp mapped with ⟨c, cMem, found⟩
  have c_lt := ascii c cMem
  rw [keeps byte c found.symm c_lt, UInt8.toNat_ofNat_of_lt' (Nat.lt_trans c_lt (by decide))]
  exact c_lt

end

end SingleByte

namespace Utf16

variable {order : ByteOrder}

/-- A unit below 128 is made of its own number and a zero. -/
theorem byte_mem_of_unit {first second : UInt8} (small : order.unit first second < 0x80) :
    UInt8.ofNat (order.unit first second) ∈ [first, second] := by
  cases order with
  | littleEndian =>
      have same : ByteOrder.littleEndian.unit first second = first.toNat := by
        simp only [ByteOrder.unit] at small ⊢
        omega
      rw [same, UInt8.ofNat_toNat]
      exact List.mem_cons_self ..
  | bigEndian =>
      have same : ByteOrder.bigEndian.unit first second = second.toNat := by
        simp only [ByteOrder.unit] at small ⊢
        omega
      rw [same, UInt8.ofNat_toNat]
      simp

theorem toNat_unit {first second : UInt8}
    (notHigh : isHighSurrogate (order.unit first second) = false)
    (notLow : isLowSurrogate (order.unit first second) = false) :
    (Char.ofNat (order.unit first second)).toNat = order.unit first second := by
  apply Utf8.toNat_ofNat_of_valid
  simp [isHighSurrogate, isLowSurrogate] at notHigh notLow
  have bound : order.unit first second < 0x10000 := by
    have := first.toNat_lt
    have := second.toNat_lt
    cases order <;> simp only [ByteOrder.unit] <;> omega
  simp only [Nat.isValidChar]
  omega

theorem joinPair_high {high low : Nat} (isHigh : isHighSurrogate high = true)
    (isLow : isLowSurrogate low = true) : 0x80 ≤ (joinPair high low).toNat := by
  simp [isHighSurrogate] at isHigh
  simp [isLowSurrogate] at isLow
  rw [joinPair, Utf8.toNat_ofNat_of_valid]
  · omega
  · simp only [Nat.isValidChar]
    omega

theorem byte_mem_of_decodeFrom {position : Nat} {pending : Option Nat}
    (pendingHigh : ∀ high ∈ pending, isHighSurrogate high = true)
    (decoded : decodeFrom order position pending data = .ok text) (cMem : c ∈ text)
    (ascii : c.toNat < 0x80) : UInt8.ofNat c.toNat ∈ data := by
  fun_induction decodeFrom order position pending data generalizing text with
  | case1 =>
      obtain rfl := Except.ok.inj decoded
      contradiction
  | case2 => contradiction
  | case3 position first second rest unit isHigh =>
      rename_i inductionHypothesis
      have inRest := inductionHypothesis (by simpa using isHigh) decoded cMem
      exact List.mem_cons_of_mem _ (List.mem_cons_of_mem _ inRest)
  | case4 => contradiction
  | case5 position first second rest unit notHigh notLow =>
      rename_i inductionHypothesis
      rcases Except.map_eq_ok_iff.mp decoded with ⟨others, decodedRest, rfl⟩
      rcases List.mem_cons.mp cMem with rfl | inOthers
      · have number : (Char.ofNat unit).toNat = unit :=
          toNat_unit (by simpa using notHigh) (by simpa using notLow)
        rw [number] at ascii ⊢
        exact List.mem_append_left rest (byte_mem_of_unit ascii)
      · have inRest := inductionHypothesis (by simp) decodedRest inOthers
        exact List.mem_cons_of_mem _ (List.mem_cons_of_mem _ inRest)
  | case6 position high first second rest unit isLow =>
      rename_i inductionHypothesis
      rcases Except.map_eq_ok_iff.mp decoded with ⟨others, decodedRest, rfl⟩
      rcases List.mem_cons.mp cMem with same | inOthers
      · have above : 0x80 ≤ (joinPair high unit).toNat :=
          joinPair_high (pendingHigh high (by simp)) isLow
        rw [← same] at above
        omega
      · have inRest := inductionHypothesis (by simp) decodedRest inOthers
        exact List.mem_cons_of_mem _ (List.mem_cons_of_mem _ inRest)
  | case7 => contradiction
  | case8 => contradiction

end Utf16

namespace Encoding

variable {encoding : Encoding}

/-- An ASCII character in a text was a byte of the data that the text was decoded from. -/
theorem byte_mem_of_decode (decoded : encoding.decode data = .ok text) (cMem : c ∈ text)
    (ascii : c.toNat < 0x80) : UInt8.ofNat c.toNat ∈ data := by
  cases encoding with
  | utf8 =>
      rw [Utf8.decode_eq_ok_iff.mp decoded]
      exact Utf8.byte_mem_encode cMem ascii
  | markedUtf8 =>
      apply Utf8.mem_of_mem_dropMark
      rw [Utf8.decode_eq_ok_iff.mp decoded]
      exact Utf8.byte_mem_encode cMem ascii
  | ascii => exact SingleByte.byte_mem_of_decodeFrom SingleByte.keepsAscii_ascii decoded cMem ascii
  | latin1 =>
      exact SingleByte.byte_mem_of_decodeFrom SingleByte.keepsAscii_latin1 decoded cMem ascii
  | cp1252 =>
      exact SingleByte.byte_mem_of_decodeFrom SingleByte.keepsAscii_cp1252 decoded cMem ascii
  | utf16 order => exact Utf16.byte_mem_of_decodeFrom (by simp) decoded cMem ascii

theorem isAscii_of_decode (compatible : encoding.isAsciiCompatible = true)
    (decoded : encoding.decode data = .ok text) (ascii : ∀ c ∈ text, c.toNat < 0x80) :
    IsAscii data := by
  cases encoding with
  | utf8 =>
      rw [Utf8.decode_eq_ok_iff.mp decoded]
      exact Utf8.isAscii_encode ascii
  | ascii => exact SingleByte.isAscii_of_decodeFrom SingleByte.keepsAscii_ascii decoded ascii
  | latin1 => exact SingleByte.isAscii_of_decodeFrom SingleByte.keepsAscii_latin1 decoded ascii
  | cp1252 => exact SingleByte.isAscii_of_decodeFrom SingleByte.keepsAscii_cp1252 decoded ascii
  | markedUtf8 => contradiction
  | utf16 order => contradiction

end Encoding

end Lexeme
