import Lexeme.Text.Numeral

/-!
# Malformed data

Why bytes are not text in an encoding, and which of them are to blame.
-/

namespace Lexeme

inductive Defect
  | invalidStartByte
  | invalidContinuationByte
  | unexpectedEnd
  | outsideAscii
  | undefinedByte
  | truncated
  | illegalSurrogate
  | illegalUnit
  deriving DecidableEq

def Defect.message : Defect → String
  | invalidStartByte => "invalid start byte"
  | invalidContinuationByte => "invalid continuation byte"
  | unexpectedEnd => "unexpected end of data"
  | outsideAscii => "ordinal not in range(128)"
  | undefinedByte => "character maps to <undefined>"
  | truncated => "truncated data"
  | illegalSurrogate => "illegal UTF-16 surrogate"
  | illegalUnit => "illegal encoding"

/-- The first bytes that are not text: where they start, how many they are, and what
is wrong with them. -/
structure Malformed where
  start : Nat
  length : Nat
  defect : Defect

/-- The message about malformed UTF-8 data: a single byte is shown, several are only
counted. -/
def Malformed.message (malformed : Malformed) (data : Bytes) : String :=
  let first := Numeral.integerString malformed.start
  let subject :=
    if malformed.length = 1 then
      "byte 0x" ++ String.ofList (Numeral.hexadecimal 2 (data.getD malformed.start 0).toNat) ++
        " in position " ++ first
    else
      "bytes in position " ++ first ++ "-" ++
        Numeral.integerString (malformed.start + malformed.length - 1)
  "'utf-8' codec can't decode " ++ subject ++ ": " ++ malformed.defect.message

end Lexeme
