import Lexeme.Encoding.Basic

/-!
# ASCII in source encodings

An encoding in which characters are made of single bytes keeps ASCII: bytes below 128 stand
for the characters of their numbers. A mark at the start of UTF-8 data is no exception, as its
bytes lie above. The encodings in units of two bytes keep nothing.
-/

namespace Lexeme

theorem toNat_ofNat_byte (byte : UInt8) : (Char.ofNat byte.toNat).toNat = byte.toNat := by
  have valid : byte.toNat.isValidChar := Or.inl (by have := byte.toNat_lt; omega)
  rw [Char.ofNat, dif_pos valid]
  rfl

/-- The characters whose numbers some bytes are. -/
def asciiText (data : Bytes) : Text :=
  data.map fun byte => Char.ofNat byte.toNat

def IsAscii (data : Bytes) : Prop :=
  ∀ byte ∈ data, byte.toNat < 0x80

instance : DecidablePred IsAscii := fun data =>
  List.decidableBAll (fun byte : UInt8 => byte.toNat < 0x80) data

namespace SingleByte

theorem decodeFrom_eq_asciiText {table : UInt8 → Option Char} {data : Bytes}
    (plain : ∀ byte ∈ data, table byte = some (Char.ofNat byte.toNat)) (defect : Defect)
    (position : Nat) : decodeFrom table defect position data = .ok (asciiText data) := by
  induction data generalizing position with
  | nil => rfl
  | cons byte rest inductionHypothesis =>
      rw [List.forall_mem_cons] at plain
      simp only [decodeFrom, plain.1, inductionHypothesis plain.2]
      rfl

end SingleByte

namespace Utf8

theorem decodeFrom_eq_asciiText {data : Bytes} (ascii : IsAscii data) (position : Nat) :
    decodeFrom position none data = .ok (asciiText data) := by
  induction data generalizing position with
  | nil => rfl
  | cons byte rest inductionHypothesis =>
      rcases List.forall_mem_cons.mp ascii with ⟨byte_lt, restAscii⟩
      rw [decodeFrom, if_pos byte_lt, inductionHypothesis restAscii]
      rfl

theorem dropMark_eq_self {data : Bytes} (ascii : IsAscii data) : dropMark data = data := by
  simp only [dropMark]
  split
  · have impossible := ascii 0xef (by simp)
    exact absurd impossible (by decide)
  · rfl

end Utf8

namespace Encoding

/-- The encodings whose characters are made of single bytes. -/
def bytewise : List Encoding :=
  [utf8, ascii, latin1, cp1252, markedUtf8]

/-- The encodings that are accepted for source files and that data can be decoded with. -/
def compatible : List Encoding :=
  [utf8, ascii, latin1, cp1252]

theorem bytewise_of_isAsciiCompatible {encoding : Encoding}
    (compatible : encoding.isAsciiCompatible = true) : encoding ∈ bytewise := by
  cases encoding with
  | markedUtf8 => contradiction
  | utf16 order => contradiction
  | _ => decide

/-- Such an encoding reads ASCII bytes as the characters of their numbers. -/
theorem decode_eq_asciiText {encoding : Encoding} (bytewiseMem : encoding ∈ bytewise)
    {data : Bytes} (asciiData : IsAscii data) :
    encoding.decode data = .ok (asciiText data) := by
  simp only [bytewise, List.mem_cons, List.not_mem_nil, or_false] at bytewiseMem
  rcases bytewiseMem with rfl | rfl | rfl | rfl | rfl
  · exact Utf8.decodeFrom_eq_asciiText asciiData 0
  · apply SingleByte.decodeFrom_eq_asciiText
    intro byte byteMem
    rw [SingleByte.ascii?, if_pos (asciiData byte byteMem)]
  · exact SingleByte.decodeFrom_eq_asciiText (fun _ _ => rfl) _ _
  · apply SingleByte.decodeFrom_eq_asciiText
    intro byte byteMem
    have byte_lt := asciiData byte byteMem
    rw [SingleByte.cp1252?, if_neg (by omega)]
  · rw [decode, Utf8.dropMark_eq_self asciiData]
    exact Utf8.decodeFrom_eq_asciiText asciiData 0

end Encoding

end Lexeme
