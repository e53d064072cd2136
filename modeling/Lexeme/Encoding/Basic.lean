import Lexeme.Encoding.SingleByte
import Lexeme.Encoding.Utf16
import Lexeme.Encoding.Utf8

/-!
# Source encodings

The encodings that source bytes can be decoded with. An encoding is compatible with
ASCII if the bytes of ASCII text in it are the ASCII bytes; only such an encoding
survives cutting the source at ASCII bytes.
-/

namespace Lexeme

inductive Encoding
  | utf8
  /-- UTF-8 whose pieces may each start with a byte order mark, which is dropped. -/
  | markedUtf8
  | ascii
  | latin1
  | cp1252
  | utf16 (order : Utf16.ByteOrder)
  deriving DecidableEq

namespace Encoding

def decode : Encoding → Bytes → Except Malformed Text
  | utf8, data => Utf8.decode data
  | markedUtf8, data => Utf8.decode (Utf8.dropMark data)
  | ascii, data => SingleByte.decodeFrom SingleByte.ascii? .outsideAscii 0 data
  | latin1, data => SingleByte.decodeFrom SingleByte.latin1? .undefinedByte 0 data
  | cp1252, data => SingleByte.decodeFrom SingleByte.cp1252? .undefinedByte 0 data
  | utf16 order, data => Utf16.decode order data

/-- Whether ASCII text keeps its bytes. -/
def isAsciiCompatible : Encoding → Bool
  | utf8 | ascii | latin1 | cp1252 => true
  | markedUtf8 | utf16 _ => false

end Encoding

end Lexeme
