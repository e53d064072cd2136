import Lexeme.Encoding.Malformed

/-!
# Encodings of one byte per character

Every byte stands for a character of its own, or for none. The first 128 characters
are those of ASCII in all of them.
-/

namespace Lexeme.SingleByte

/-- ASCII leaves the upper half of the bytes without a character. -/
def ascii? (byte : UInt8) : Option Char :=
  if byte.toNat < 0x80 then some (Char.ofNat byte.toNat) else none

/-- Latin-1 numbers its characters as Unicode does. -/
def latin1? (byte : UInt8) : Option Char :=
  some (Char.ofNat byte.toNat)

/-- The characters of code page 1252 for the bytes from 80 to 9f, zero for none. -/
def windowsRow : List Nat := [
    0x20ac, 0, 0x201a, 0x0192, 0x201e, 0x2026, 0x2020, 0x2021,
    0x02c6, 0x2030, 0x0160, 0x2039, 0x0152, 0, 0x017d, 0,
    0, 0x2018, 0x2019, 0x201c, 0x201d, 0x2022, 0x2013, 0x2014,
    0x02dc, 0x2122, 0x0161, 0x203a, 0x0153, 0, 0x017e, 0x0178
  ]

/-- Code page 1252 is Latin-1 but for the bytes from 80 to 9f. -/
def cp1252? (byte : UInt8) : Option Char :=
  if 0x80 ≤ byte.toNat ∧ byte.toNat < 0xa0 then
    match windowsRow[byte.toNat - 0x80]? with
    | none | some 0 => none
    | some code => some (Char.ofNat code)
  else some (Char.ofNat byte.toNat)

/-- Decodes from a position on; a byte without a character is the given defect. -/
def decodeFrom (table : UInt8 → Option Char) (defect : Defect) (position : Nat) :
    Bytes → Except Malformed Text
  | [] => .ok []
  | byte :: rest =>
    match table byte with
    | some c => (decodeFrom table defect (position + 1) rest).map (c :: ·)
    | none => .error ⟨position, 1, defect⟩

end Lexeme.SingleByte
