import Lexeme.Encoding.Utf8
import Lexeme.Path
import Lexeme.Text.Hex

/-!
# Addresses of documents

The name of a document, set behind the root, is its address. In it a percent sign and two
digits stand for a byte of UTF-8, so that every path has an address; names that say the same
once the escapes are resolved are names of one document. Up to a question mark or a number
sign an address is the path of a file.
-/

namespace Lexeme.Editor.Address

/-- The bytes that a text with escapes stands for: a percent sign and two base sixteen
digits are one byte, and all else stands for itself. -/
def bytes : Text → Bytes
  | '%' :: high :: low :: rest =>
    match Hex.parse? [high, low] with
    | some data => data ++ bytes rest
    | none => Utf8.encodeChar '%' ++ bytes (high :: low :: rest)
  | c :: rest => Utf8.encodeChar c ++ bytes rest
  | [] => []

/-- The text that a text with escapes stands for. The escapes are resolved once: a percent
sign that comes out of them is only a percent sign. -/
def unescape (text : Text) : Text :=
  Utf8.decodeLossy (bytes text)

def isIgnored (c : Char) : Bool :=
  c == '\t' || c == '\n' || c == '\r'

def endsPath (c : Char) : Bool :=
  c == '?' || c == '#'

/-- The text of the path that a document's name leads to. The letter of a drive, which is
taken in lower case, stands in place of the root. -/
def pathText (name : Text) : Text :=
  match unescape ((name.filter (!isIgnored ·)).takeWhile (!endsPath ·)) with
  | letter :: ':' :: rest =>
    if letter.isAlpha then letter.toLower :: ':' :: rest else '/' :: letter :: ':' :: rest
  | plain => '/' :: plain

def path (name : Text) : Path :=
  .ofText (pathText name)

end Lexeme.Editor.Address
