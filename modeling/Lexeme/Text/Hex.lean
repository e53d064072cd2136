import Lexeme.Text.Numeral

/-!
# Hexadecimal pairs

A byte is shown as two lower-case base sixteen digits; a dump sets the pairs apart
by blanks, a compact form runs them together.
-/

namespace Lexeme.Hex

def pair (byte : UInt8) : Text :=
  Numeral.hexadecimal 2 byte.toNat

def compact (data : Bytes) : Text :=
  (data.map pair).flatten

def spaced (data : Bytes) : Text :=
  Text.joinWith [' '] (data.map pair)

/-- Reads pairs that stand without anything between them, in either case. -/
def parse? : Text → Option Bytes
  | [] => some []
  | high :: low :: rest => do
    let h ← Numeral.digitValue? 16 high
    let l ← Numeral.digitValue? 16 low
    let data ← parse? rest
    pure (UInt8.ofNat (h * 16 + l) :: data)
  | [_] => none

end Lexeme.Hex
