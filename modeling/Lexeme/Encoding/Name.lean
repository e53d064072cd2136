import Lexeme.Encoding.Basic

/-!
# Names of encodings

An encoding is chosen by name. Names are compared without regard to case, and every
run of characters other than ASCII letters, digits and points counts as one
underscore between its neighbours. Besides encodings of text there are transforms of
bytes, which have names but give no text. Seven encodings are decoded here; of the others
that are registered it is only known whether they keep ASCII.
-/

namespace Lexeme

/-- What a name stands for. -/
inductive Codec
  | source (encoding : Encoding)
  /-- Any other encoding of text. -/
  | text (isAsciiCompatible : Bool)
  /-- A transform from bytes to bytes or from text to text. -/
  | transform

namespace Codec

def isNameCharacter (c : Char) : Bool :=
  c.isAlphanum || c == '.'

/-- The form in which names are compared: `pending` is a run of other characters since
the last character that counts. -/
def normalizeFrom : Bool → Text → Text
  | _, [] => []
  | pending, c :: rest =>
    if isNameCharacter c then
      if pending then '_' :: c.toLower :: normalizeFrom false rest
      else c.toLower :: normalizeFrom false rest
    else normalizeFrom true rest

/-- The form in which names are compared. -/
def normalize (name : Text) : Text :=
  normalizeFrom false (name.dropWhile (!isNameCharacter ·))

/-- Each codec with its names: first the one that is its own, then the further ones. -/
def registry : List (Codec × List String) := [
    (.source .utf8, ["utf_8", "u8", "utf", "utf8", "utf8_ucs2", "utf8_ucs4", "cp65001"]),
    (.source .markedUtf8, ["utf_8_sig"]),
    (.source .ascii, ["ascii", "646", "ansi_x3.4_1968", "ansi_x3_4_1968",
      "ansi_x3.4_1986", "cp367", "csascii", "ibm367", "iso646_us", "iso_646.irv_1991",
      "iso_ir_6", "us", "us_ascii"]),
    (.source .latin1, ["latin_1", "8859", "cp819", "csisolatin1", "ibm819", "iso8859",
      "iso8859_1", "iso_8859_1", "iso_8859_1_1987", "iso_ir_100", "l1", "latin", "latin1"]),
    (.source .cp1252, ["cp1252", "1252", "windows_1252"]),
    (.source (.utf16 .littleEndian), ["utf_16_le", "unicodelittleunmarked", "utf_16le"]),
    (.source (.utf16 .bigEndian), ["utf_16_be", "unicodebigunmarked", "utf_16be"]),
    (.text true, ["utf_7", "u7", "utf7", "unicode_1_1_utf_7"]),
    (.text true, ["cp437", "437", "cspc8codepage437", "ibm437"]),
    (.text true, ["koi8_r", "cskoi8r"]),
    (.text true, ["shift_jis", "csshiftjis", "shiftjis", "sjis", "s_jis", "x_mac_japanese"]),
    (.text true, ["gbk", "936", "cp936", "ms936"]),
    (.text true, ["big5", "big5_tw", "csbig5", "x_mac_trad_chinese"]),
    (.text true, ["euc_jp", "eucjp", "ujis", "u_jis"]),
    (.text true, ["iso8859_15", "iso_8859_15", "l9", "latin9"]),
    (.text true, ["raw_unicode_escape"]),
    (.text false, ["utf_16", "u16", "utf16"]),
    (.text false, ["utf_32", "u32", "utf32"]),
    (.text false, ["utf_32_le", "utf_32le"]),
    (.text false, ["utf_32_be", "utf_32be"]),
    (.text false, ["cp037", "037", "csibm037", "ebcdic_cp_ca", "ebcdic_cp_nl", "ebcdic_cp_us",
      "ebcdic_cp_wt", "ibm037", "ibm039"]),
    (.text false, ["cp500", "500", "csibm500", "ebcdic_cp_be", "ebcdic_cp_ch", "ibm500"]),
    (.text false, ["cp1140", "1140", "ibm1140"]),
    (.text false, ["punycode"]),
    (.text false, ["unicode_escape"]),
    (.text false, ["undefined"]),
    (.transform, ["hex_codec", "hex"]),
    (.transform, ["base64_codec", "base64", "base_64"]),
    (.transform, ["rot_13", "rot13"]),
    (.transform, ["zlib_codec", "zip", "zlib"]),
    (.transform, ["bz2_codec", "bz2"]),
    (.transform, ["quopri_codec", "quopri", "quoted_printable", "quotedprintable"]),
    (.transform, ["uu_codec", "uu"])
  ]

def ofOwnName? (name : Text) : Option Codec :=
  (registry.find? fun entry => entry.2.head?.any (·.toList == name)).map Prod.fst

def ofFurtherName? (name : Text) : Option Codec :=
  (registry.find? fun entry => entry.2.tail.any (·.toList == name)).map Prod.fst

/-- The codec that a name stands for. A point may stand for an underscore of a further
name, but not of a codec's own name. -/
def ofName? (name : Text) : Option Codec :=
  let form := normalize name
  ofFurtherName? form <|> ofFurtherName? (form.map fun c => if c = '.' then '_' else c)
    <|> ofOwnName? form

def isAsciiCompatible : Codec → Bool
  | source encoding => encoding.isAsciiCompatible
  | text isAsciiCompatible => isAsciiCompatible
  | transform => false

end Codec

inductive NameProblem
  | holdsNul
  | unknown (name : Text)
  | notText (name : Text)

def maxShownName : Nat := 400

/-- The words for a useless name. The name of a transform is cut short if it is long. -/
def NameProblem.message : NameProblem → String
  | holdsNul => "embedded null character"
  | unknown name => "unknown encoding: " ++ String.ofList name
  | notText name =>
    "'" ++ String.ofList (Utf8.clip maxShownName name) ++
      "' is not a text encoding; use codecs.decode() to handle arbitrary codecs"

inductive DecodeFailure
  | malformed (malformed : Malformed)
  | name (problem : NameProblem)

namespace Encoding

def ofName (name : Text) : Except NameProblem Encoding :=
  match Codec.ofName? name with
  | some (.source encoding) => .ok encoding
  | some .transform => .error (.notText name)
  | some (.text _) | none => .error (.unknown name)

/-- Decodes with a named encoding. The name is not looked up for the sake of no bytes
at all, but a name with a zero character is refused always. -/
def decodeNamed (name : Text) (data : Bytes) : Except DecodeFailure Text :=
  if name.contains '\x00' then .error (.name .holdsNul)
  else if data.isEmpty then .ok []
  else
    match ofName name with
    | .error problem => .error (.name problem)
    | .ok encoding => (encoding.decode data).mapError .malformed

end Encoding

/-- What speaks against a name as the encoding of source files. -/
inductive EncodingObjection
  | holdsNul
  | unknown (name : Text)
  | notAsciiCompatible (name : Text)

def EncodingObjection.message : EncodingObjection → String
  | holdsNul => NameProblem.holdsNul.message
  | unknown name => (NameProblem.unknown name).message
  | notAsciiCompatible name => "encoding is not ASCII-compatible: " ++ String.ofList name

/-- Accepts the name of an encoding that keeps ASCII text intact. -/
def Encoding.checkName (name : Text) : Except EncodingObjection Text :=
  if name.contains '\x00' then .error .holdsNul
  else
    match Codec.ofName? name with
    | none => .error (.unknown name)
    | some codec => if codec.isAsciiCompatible then .ok name else .error (.notAsciiCompatible name)

end Lexeme
