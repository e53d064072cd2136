import Lexeme.Encoding.Malformed

/-!
# UTF-16

Text in 16-bit code units: a character above the first 65536 takes a pair of
surrogate units, every other one unit. Editors count positions in these units.
-/

namespace Lexeme.Utf16

def units (c : Char) : List Nat :=
  if c.toNat < 0x10000 then [c.toNat]
  else [0xd800 + (c.toNat - 0x10000) / 0x400, 0xdc00 + (c.toNat - 0x10000) % 0x400]

/-- The number of code units of a text. -/
def length (text : Text) : Nat :=
  (text.flatMap units).length

@[simp]
theorem length_append (first second : Text) :
    length (first ++ second) = length first + length second := by
  simp [length]

inductive ByteOrder
  | littleEndian
  | bigEndian
  deriving DecidableEq

def ByteOrder.unit (order : ByteOrder) (first second : UInt8) : Nat :=
  match order with
  | littleEndian => second.toNat * 0x100 + first.toNat
  | bigEndian => first.toNat * 0x100 + second.toNat

def isHighSurrogate (unit : Nat) : Bool :=
  0xd800 ≤ unit && unit < 0xdc00

def isLowSurrogate (unit : Nat) : Bool :=
  0xdc00 ≤ unit && unit < 0xe000

def joinPair (high low : Nat) : Char :=
  Char.ofNat (0x10000 + (high - 0xd800) * 0x400 + (low - 0xdc00))

/-- Decodes from a position on. `high` is the first unit of a pair whose second unit
comes next. -/
def decodeFrom (order : ByteOrder) (position : Nat) : Option Nat → Bytes → Except Malformed Text
  | none, [] => .ok []
  | none, [_] => .error ⟨position, 1, .truncated⟩
  | none, first :: second :: rest =>
    let unit := order.unit first second
    if isHighSurrogate unit then decodeFrom order (position + 2) (some unit) rest
    else if isLowSurrogate unit then .error ⟨position, 2, .illegalUnit⟩
    else (decodeFrom order (position + 2) none rest).map (Char.ofNat unit :: ·)
  | some high, first :: second :: rest =>
    let unit := order.unit first second
    if isLowSurrogate unit then
      (decodeFrom order (position + 2) none rest).map (joinPair high unit :: ·)
    else .error ⟨position - 2, 2, .illegalSurrogate⟩
  | some _, rest => .error ⟨position - 2, 2 + rest.length, .unexpectedEnd⟩

def decode (order : ByteOrder) (data : Bytes) : Except Malformed Text :=
  decodeFrom order 0 none data

end Lexeme.Utf16
