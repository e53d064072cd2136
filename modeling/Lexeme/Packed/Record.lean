import Lexeme.Fault
import Lexeme.Packed.BigEndian

/-!
# Packed tokens

A packed token is a record of five bytes: the offset in four of them, the most
significant one first, and the category's ordinal in the last. The offset comes
first, so records compare byte by byte as their offsets do. A token file is a row of
records with nothing between them.
-/

namespace Lexeme

def recordSize : Nat := 5

namespace Draft

/-- Accepts a draft whose label is a category and whose offset is an integer. A truth
value is no integer. -/
def check (draft : Draft) : Except Failure Token :=
  match draft.label, draft.offset with
  | .other value, offset => .error (Fault.notCategory offset value).raised
  | .known category, .int offset => .ok ⟨offset, category⟩
  | .known category, offset => .error (Fault.offsetNotInteger offset category).raised

end Draft

namespace Token

/-- The record of a token, provided that the offset fits into four bytes. -/
def pack (token : Token) : Except Failure Bytes :=
  if 0 ≤ token.offset ∧ token.offset ≤ maxOffset then
    .ok (BigEndian.encode recordSize (token.offset.toNat * 256 + token.category.ordinal))
  else .error (Fault.offsetOutOfRange token).raised

def unpack (data : Bytes) : Except Fault Token :=
  if data.length = recordSize then
    let word := BigEndian.decode data
    match Category.ofOrdinal? (word % 256) with
    | some category => .ok ⟨(word / 256 : Nat), category⟩
    | none => .error (.unknownOrdinal data (word / 256) (word % 256))
  else .error (.recordLength data)

end Token

namespace TokenFile

/-- The token file of a sequence: its records in a row. -/
def encode (tokens : List Token) : Except Failure Bytes := do
  let records ← tokens.mapM Token.pack
  pure records.flatten

/-- Cuts data into pieces of five bytes; what is left at the end is dropped. -/
def chunks : Bytes → List Bytes
  | a :: b :: c :: d :: e :: rest => [a, b, c, d, e] :: chunks rest
  | _ => []

/-- The records of a token file. The length is checked before any record. -/
def records (data : Bytes) : Except Fault (List Bytes) :=
  if data.length % recordSize = 0 then .ok (chunks data)
  else
    .error (.partialRecord data.length
      (data.drop (data.length - data.length % recordSize)))

def decode (data : Bytes) : Except Fault (List Token) := do
  let records ← records data
  records.mapM Token.unpack

end TokenFile

namespace Draft

/-- The token of a draft with its record: the label is checked first, then the kind of the
offset, then its range. -/
def settle (draft : Draft) : Except Failure (Token × Bytes) := do
  let token ← draft.check
  let record ← token.pack
  pure (token, record)

def pack (draft : Draft) : Except Failure Bytes :=
  draft.settle.map Prod.snd

def packAll (drafts : List Draft) : Except Failure Bytes := do
  let records ← drafts.mapM pack
  pure records.flatten

end Draft

end Lexeme
