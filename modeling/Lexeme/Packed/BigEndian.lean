import Lexeme.Text.Basic

/-!
# Big-endian numbers

A number as a fixed count of bytes, the most significant one first. Numbers of one
width compare as their bytes do.
-/

namespace Lexeme.BigEndian

/-- The `width` lowest base 256 digits of a number, the most significant one first. -/
def encode : Nat → Nat → Bytes
  | 0, _ => []
  | width + 1, n => encode width (n / 256) ++ [UInt8.ofNat (n % 256)]

/-- The number that digits stand for. -/
def decode (data : Bytes) : Nat :=
  data.foldl (fun total byte => total * 256 + byte.toNat) 0

end Lexeme.BigEndian
