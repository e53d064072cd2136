import Lexeme.Encoding.Malformed

/-!
# UTF-8

A character below 128 is one byte; every other one is a lead byte followed by one to
three continuation bytes. The bytes that may follow a lead byte directly are limited
further, so that every character has a single form and surrogates have none.

Decoding goes byte by byte. Between two bytes it is either at a character boundary or
inside a sequence, and what it needs to know of a sequence is a `Pending`.
-/

namespace Lexeme.Utf8

def encodeChar (c : Char) : Bytes :=
  let code := c.toNat
  if code < 0x80 then [UInt8.ofNat code]
  else if code < 0x800 then
    [UInt8.ofNat (0xc0 + code / 0x40), UInt8.ofNat (0x80 + code % 0x40)]
  else if code < 0x10000 then
    [UInt8.ofNat (0xe0 + code / 0x1000), UInt8.ofNat (0x80 + code / 0x40 % 0x40),
      UInt8.ofNat (0x80 + code % 0x40)]
  else
    [UInt8.ofNat (0xf0 + code / 0x40000), UInt8.ofNat (0x80 + code / 0x1000 % 0x40),
      UInt8.ofNat (0x80 + code / 0x40 % 0x40), UInt8.ofNat (0x80 + code % 0x40)]

def encode (text : Text) : Bytes :=
  text.flatMap encodeChar

/-- The start of a text that fits into a number of bytes. A character that fits only in part
leaves the replacement character. -/
def clip : Nat → Text → Text
  | _, [] => []
  | room, c :: rest =>
    let size := (encodeChar c).length
    if size ≤ room then c :: clip (room - size) rest
    else if room = 0 then [] else ['\ufffd']

/-- A sequence of which some bytes have been read and `missing` more have to follow. -/
structure Pending where
  seen : Nat
  missing : Nat
  /-- The bits of the character so far. -/
  bits : Nat
  /-- The least byte that may come next. -/
  least : Nat
  /-- The greatest byte that may come next. -/
  greatest : Nat

/-- The sequence that a lead byte opens, if it is one. -/
def open? (byte : Nat) : Option Pending :=
  if byte < 0xc2 then none
  else if byte < 0xe0 then some ⟨1, 1, byte - 0xc0, 0x80, 0xbf⟩
  else if byte < 0xf0 then
    some ⟨1, 2, byte - 0xe0, if byte = 0xe0 then 0xa0 else 0x80,
      if byte = 0xed then 0x9f else 0xbf⟩
  else if byte < 0xf5 then
    some ⟨1, 3, byte - 0xf0, if byte = 0xf0 then 0x90 else 0x80,
      if byte = 0xf4 then 0x8f else 0xbf⟩
  else none

def Pending.advance (pending : Pending) (byte : Nat) : Pending :=
  ⟨pending.seen + 1, pending.missing - 1, pending.bits * 0x40 + (byte - 0x80), 0x80, 0xbf⟩

/-- Decodes from a position on, at a boundary or inside a sequence. -/
def decodeFrom (position : Nat) : Option Pending → Bytes → Except Malformed Text
  | none, [] => .ok []
  | some pending, [] => .error ⟨position - pending.seen, pending.seen, .unexpectedEnd⟩
  | none, byte :: rest =>
    if byte.toNat < 0x80 then
      (decodeFrom (position + 1) none rest).map (Char.ofNat byte.toNat :: ·)
    else
      match open? byte.toNat with
      | some pending => decodeFrom (position + 1) (some pending) rest
      | none => .error ⟨position, 1, .invalidStartByte⟩
  | some pending, byte :: rest =>
    if pending.least ≤ byte.toNat ∧ byte.toNat ≤ pending.greatest then
      let next := pending.advance byte.toNat
      if next.missing = 0 then
        (decodeFrom (position + 1) none rest).map (Char.ofNat next.bits :: ·)
      else decodeFrom (position + 1) (some next) rest
    else .error ⟨position - pending.seen, pending.seen, .invalidContinuationByte⟩

def decode (data : Bytes) : Except Malformed Text :=
  decodeFrom 0 none data

/-- Decodes from a position on, with one replacement character for each sequence that is
broken off and for each byte that opens none. -/
def decodeLossyFrom (pending : Option Pending) (data : Bytes) : Text :=
  match pending, data with
  | none, [] => []
  | some _, [] => ['\ufffd']
  | none, byte :: rest =>
    if byte.toNat < 0x80 then Char.ofNat byte.toNat :: decodeLossyFrom none rest
    else
      match open? byte.toNat with
      | some pending => decodeLossyFrom (some pending) rest
      | none => '\ufffd' :: decodeLossyFrom none rest
  | some pending, byte :: rest =>
    if pending.least ≤ byte.toNat ∧ byte.toNat ≤ pending.greatest then
      let next := pending.advance byte.toNat
      if next.missing = 0 then Char.ofNat next.bits :: decodeLossyFrom none rest
      else decodeLossyFrom (some next) rest
    else '\ufffd' :: decodeLossyFrom none (byte :: rest)
termination_by (data.length, if pending.isSome then 1 else 0)

def decodeLossy (data : Bytes) : Text :=
  decodeLossyFrom none data

/-- The bytes after a byte order mark at the start, or all if there is none. -/
def dropMark : Bytes → Bytes
  | 0xef :: 0xbb :: 0xbf :: rest => rest
  | data => data

end Lexeme.Utf8
