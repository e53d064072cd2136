import Lexeme.Text.Hex
import Lexeme.Token

/-!
# Diagnostics

A diagnostic is a message about a place in a file, with the evidence that belongs to
it. It is shown as a block: the message, the place, and a note for each thing that
helps to see what went wrong.
-/

namespace Lexeme

/-- What a diagnostic is about, with its evidence. -/
inductive Subject
  | general
  /-- A word that is not one of a group. -/
  | miss (word : Text) (group : Group)
  /-- A token that has no packed form. -/
  | draft (draft : Draft)
  /-- Bytes that are not packed tokens. -/
  | packed (data : Bytes)
  /-- A sequence that texts cannot be located with. -/
  | locator
  /-- A token that is not in the sequence it was looked up in. -/
  | absent (token : Draft)
  /-- A token whose span does not lie in the source, with the end of the span. -/
  | span (token : Draft) (stop : Datum)
  /-- Two neighbours of a sequence whose offsets do not increase. -/
  | order (previous : Datum)
  /-- Source bytes that are not text. -/
  | source (data : Bytes) (encoding : Text)

/-- Whether a subject concerns the order that locating texts relies on. -/
def Subject.isLocator : Subject → Bool
  | locator | absent _ | span .. | order _ => true
  | general | miss .. | draft _ | packed _ | source .. => false

def Subject.notes : Subject → List String
  | packed data => ["bytes: " ++ String.ofList (Hex.spaced data)]
  | source data _ =>
    let more := if 16 < data.length then " ..." else ""
    ["bytes: " ++ String.ofList (Hex.spaced (data.take 16)) ++ more,
      "the source does not match the one the offsets came from"]
  | _ => []

/-- A message about a place. -/
structure Diagnostic where
  subject : Subject
  message : String
  /-- The place as an offset into the file; `null` if none is known. -/
  offset : Datum

namespace Diagnostic

def render (diagnostic : Diagnostic) (file : String) : String :=
  let place := match diagnostic.offset with
    | .null => file
    | offset => file ++ "@" ++ offset.plain
  let notes := diagnostic.subject.notes.map ("   = " ++ ·)
  "\n".intercalate (("error: " ++ diagnostic.message) :: ("  --> " ++ place) :: notes)

/-- The message comes first. -/
theorem exists_render_eq (diagnostic : Diagnostic) (file : String) :
    ∃ rest, diagnostic.render file = "error: " ++ diagnostic.message ++ "\n" ++ rest :=
  ⟨_, String.intercalate_cons_cons⟩

def miss (word : Text) (group : Group) (offset : Datum) : Diagnostic :=
  { subject := .miss word group
    message := String.ofList (Quoted.encode word) ++ " is not a " ++ group.label
    offset }

/-- A token that has no packed form. The place is known if the offset is a position. -/
def draft (message : String) (draft : Draft) : Diagnostic :=
  { subject := .draft draft
    message
    offset := if draft.offset.isPosition then draft.offset else .null }

def packed (message : String) (data : Bytes) (offset : Datum) : Diagnostic :=
  { subject := .packed data, message, offset }

def absent (category : Category) (offset : Datum) : Diagnostic :=
  { subject := .absent ⟨offset, .known category⟩
    message := "token " ++ category.name ++ " at offset " ++ offset.plain ++
      " is not in the sequence"
    offset }

def span (message : String) (token : Draft) (stop : Datum) : Diagnostic :=
  { subject := .span token stop, message, offset := token.offset }

def order (previous offset : Datum) : Diagnostic :=
  { subject := .order previous
    message := "offset " ++ offset.plain ++ " does not follow offset " ++ previous.plain ++
      "; sequence offsets must be strictly increasing"
    offset }

def source (data : Bytes) (offset : Datum) (encoding : Text) (reason : String) : Diagnostic :=
  { subject := .source data encoding
    message := "source bytes are not valid " ++ String.ofList encoding ++ ": " ++ reason
    offset }

end Diagnostic

end Lexeme
