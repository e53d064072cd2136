import Lexeme.Packed.Record
import Lexeme.Search
import Lexeme.Source

/-!
# Texts of tokens

A token keeps its start only. Its text runs to the start of the next token of its
sequence, or to the end of the source if it is the last one, so the text is recovered
from the whole sequence and the bytes that were scanned. The category plays no part in
that, so marks have texts as well. A token can be looked up among tokens or among records;
both ways give the same text.
-/

namespace Lexeme

namespace Mark

/-- Reads the bytes from a mark's offset to `stop`, or to the end of the source if there
is no `stop`. A last mark must have at least one byte, any other one all of its bytes. -/
def readBytes (mark : Mark) (stop : Option Int) (source : Source) :
    Except Failure Bytes × Source :=
  match stop with
  | none =>
    match source.read none with
    | .error refusal => (.error (.refusal refusal), source)
    | .ok (data, after) =>
      if data.isEmpty then (.error (.fault (.lastSpanEmpty mark)), after) else (.ok data, after)
  | some stop =>
    let length := stop - mark.offset
    if length < 0 then (.error (Fault.spanNegative mark stop).raised, source)
    else
      match source.read (some length) with
      | .error refusal => (.error (.refusal refusal), source)
      | .ok (data, after) =>
        if (data.length : Int) = length then (.ok data, after)
        else (.error (.fault (.spanCutShort mark stop data.length)), after)

def decodeSpan (mark : Mark) (encoding : Text) (data : Bytes) : Except Failure Text :=
  match Encoding.decodeNamed encoding data with
  | .ok text => .ok text
  | .error (.malformed malformed) =>
    .error (.fault (.undecodable data mark.offset encoding malformed.defect))
  | .error (.name problem) => .error (.name problem)

end Mark

/-- The offset of the member that follows, if one does: a span ends there. -/
def nextOffset {α : Type} [ToMark α] (following : Option α) : Option Int :=
  following.map fun next => (toMark next).offset

namespace Source

variable {α : Type} [ToMark α]

/-- The text from a mark's offset to `stop`, or to the end of the source. -/
def readSpan (source : Source) (mark : Mark) (stop : Option Int) (encoding : Text) :
    Except Failure Text × Source :=
  let (data, after) := source.readingAt mark.offset Failure.refusal (mark.readBytes stop)
  (data.bind (mark.decodeSpan encoding), after)

/-- The text of a mark, looked up by its offset in a sequence. -/
def tokenText (source : Source) (mark : Mark) (sequence : List α) (encoding : Text) :
    Except Failure Text × Source :=
  let index := Search.lowerBound (fun other => (toMark other).offset < mark.offset) sequence
  if sequence[index]?.any (toMark · == mark) then
    source.readSpan mark (nextOffset sequence[index + 1]?) encoding
  else (.error (.absent mark), source)

/-- The end of the span before a record: the offset of the record's token. -/
def recordOffset : Option Bytes → Except Fault (Option Int)
  | none => .ok none
  | some data => (Token.unpack data).map fun token => some token.offset

/-- The text of a token, looked up by its record in a sequence of records. -/
def packedText (source : Source) (token : Token) (records : List Bytes) (encoding : Text) :
    Except Failure Text × Source :=
  match token.pack with
  | .error failure => (.error failure, source)
  | .ok sought =>
    let index := Search.lowerBound (· < sought) records
    if records[index]? = some sought then
      match recordOffset records[index + 1]? with
      | .error fault => (.error (.fault fault), source)
      | .ok stop => source.readSpan token stop encoding
    else (.error (.absent token), source)

/-- The texts of all members of a sequence in order, up to one that cannot be read. -/
def texts (source : Source) (encoding : Text) : List α → Partial (α × Text) × Source
  | [] => (.done, source)
  | member :: rest =>
    match source.readSpan (toMark member) (nextOffset rest.head?) encoding with
    | (.error failure, after) => (.failed failure, after)
    | (.ok text, after) =>
      let (others, last) := after.texts encoding rest
      (others.cons (member, text), last)

/-- Looks tokens up one after the other over one handle, each first among `sequence` and
then among `records`. -/
def lookUpBothWays (source : Source) (encoding : Text) (sequence : List Token)
    (records : List Bytes) :
    List Token → List (Token × Except Failure Text × Except Failure Text)
  | [] => []
  | token :: tokens =>
    let (text, between) := source.tokenText token sequence encoding
    let (packed, after) := between.packedText token records encoding
    (token, text, packed) :: after.lookUpBothWays encoding sequence records tokens

end Source

/-- A place in a sequence from which the texts of its members are read one by one. -/
structure Cursor where
  encoding : Text
  /-- The index of the next member; a cursor that has ended has none. -/
  next : Option Nat

inductive Cursor.Answer (α : Type)
  | item (member : α) (text : Text)
  | exhausted

namespace Cursor

variable {α : Type} [ToMark α]

def start (encoding : Text) : Cursor :=
  ⟨encoding, some 0⟩

/-- Reads the text of the next member of the sequence as it is now. After the last member, and
after a failure, the cursor has ended for good. -/
def step (cursor : Cursor) (sequence : List α) (source : Source) :
    Except Failure (Answer α) × Cursor × Source :=
  match cursor.next with
  | none => (.ok .exhausted, cursor, source)
  | some index =>
    match sequence[index]? with
    | none => (.ok .exhausted, { cursor with next := none }, source)
    | some member =>
      match source.readSpan (toMark member) (nextOffset sequence[index + 1]?) cursor.encoding with
      | (.error failure, after) => (.error failure, { cursor with next := none }, after)
      | (.ok text, after) =>
        (.ok (.item member text), { cursor with next := some (index + 1) }, after)

end Cursor

end Lexeme
