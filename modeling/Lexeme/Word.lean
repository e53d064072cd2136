import Lexeme.Literal

/-!
# Words of a source file

Source bytes are cut into words without looking at their encoding. Each byte that is a
literal by itself is a word, and so is a line break of two bytes; every longest run of
other bytes in between is one word. Runs are decoded, so a word may fail to be text; the
words before it are still good.
-/

namespace Lexeme

inductive Piece
  /-- A literal: one byte, or a carriage return and a line feed. -/
  | mark (data : Bytes)
  /-- Bytes without a literal among them. -/
  | run (data : Bytes)

namespace Piece

def data : Piece → Bytes
  | mark data => data
  | run data => data

/-- The bytes that are words of their own: the literals of one character. -/
def breakBytes : List UInt8 :=
  cascade.flatMap fun group =>
    group.literals.filterMap fun entry =>
      match entry.1 with
      | [c] => some (UInt8.ofNat c.toNat)
      | _ => none

def isBreak (byte : UInt8) : Bool :=
  breakBytes.contains byte

/-- Puts a byte in front of the run that the pieces start with, or makes it a run of its
own. -/
def prepend (byte : UInt8) : List Piece → List Piece
  | run data :: pieces => run (byte :: data) :: pieces
  | pieces => run [byte] :: pieces

/-- The pieces of source data. A carriage return belongs to a line break only if a line
feed follows. -/
def cut : Bytes → List Piece
  | [] => []
  | 0x0d :: 0x0a :: rest => mark [0x0d, 0x0a] :: cut rest
  | byte :: rest => if isBreak byte then mark [byte] :: cut rest else prepend byte (cut rest)

theorem flatMap_data_prepend (byte : UInt8) (pieces : List Piece) :
    (prepend byte pieces).flatMap data = byte :: pieces.flatMap data := by
  unfold prepend
  split <;> simp [data]

theorem flatMap_data_cut (source : Bytes) : (cut source).flatMap data = source := by
  fun_induction cut source with
  | case1 => rfl
  | case2 rest inductionHypothesis => simp [data, inductionHypothesis]
  | case3 byte rest notLineBreak isBreak inductionHypothesis =>
    simp [data, inductionHypothesis]
  | case4 byte rest notLineBreak notBreak inductionHypothesis =>
    rw [flatMap_data_prepend, inductionHypothesis]

/-- The text of a piece that starts at an offset. Literals are plain ASCII in every
encoding; a run is decoded. -/
def text (encoding : Text) (offset : Int) : Piece → Except Failure Text
  | mark data => .ok (data.map fun byte => Char.ofNat byte.toNat)
  | run data =>
    match Encoding.decodeNamed encoding data with
    | .ok text => .ok text
    | .error (.malformed malformed) =>
      .error (.fault (.undecodable data offset encoding malformed.defect))
    | .error (.name problem) => .error (.name problem)

/-- The words of pieces, the first of which starts at an offset, up to one that does not
decode. -/
def words (encoding : Text) : Int → List Piece → Partial (Int × Text)
  | _, [] => .done
  | offset, piece :: pieces =>
    match piece.text encoding offset with
    | .error failure => .failed failure
    | .ok text => (words encoding (offset + piece.data.length) pieces).cons (offset, text)

end Piece

/-- The words of source data with their offsets, up to one that does not decode. -/
def scan (data : Bytes) (encoding : Text) : Partial (Int × Text) :=
  Piece.words encoding 0 (Piece.cut data)

/-- The tokens of words that come one by one. A violation of the order among the words
that came is found before the reason why no more came. -/
def Token.classifyPartial (classify : Int → Text → Except Failure Token)
    (words : Partial (Int × Text)) : Except Failure (List Token) :=
  match Token.classifyEach classify words.items, words.failure with
  | .error failure, _ => .error failure
  | .ok _, some failure => .error failure
  | .ok tokens, none => .ok tokens

/-- The tokens of source data. Places in data in memory can be told, so classifying a word of
the data does not fail. -/
def tokenize (data : Bytes) (encoding : Text) : Except Failure (List Token) :=
  Token.classifyPartial (fun offset word => .ok (Token.ofWord offset word)) (scan data encoding)

end Lexeme
