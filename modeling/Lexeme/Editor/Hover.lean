import Lexeme.Editor.Span

/-!
# Hovering

When the cursor rests on a token, the editor shows the token's category, its group, its
offset and its record, and marks its range. A line break shows nothing. The positions at the
ends of the range are made by the editor's library, which may refuse to make one.
-/

namespace Lexeme.Editor

/-- What the editor's library does for positions: it makes one of a line and a character, or says
why not, and tells both. -/
structure PositionLibrary (π ε : Type) where
  make (line character : Int) : Except ε π
  line : π → Int
  character : π → Int

/-- A part of a document, between two positions. -/
structure Range (π : Type) where
  start : π
  stop : π

/-- What is shown for a position: the span under it, the record of its token, and its range. -/
structure Hover (π : Type) where
  span : Span
  record : Bytes
  range : Range π

inductive HoverFailure (ε : Type)
  | failure (failure : Failure)
  | position (problem : ε)

variable {π ε : Type}

def Hover.markdown (hover : Hover π) : String :=
  let token := hover.span.token
  let group := match token.category.group? with
    | some group => group.label
    | none => "unclassified"
  "**" ++ token.category.name ++ "** (" ++ group ++ ")\n\noffset `" ++
    Numeral.integerString token.offset ++ "`, ordinal `" ++
    Numeral.integerString token.category.ordinal ++ "`, packed `" ++
    String.ofList (Hex.spaced hover.record) ++ "`"

/-- Whether a position lies in the part of a span on its line. Line breaks cover no
position. -/
def Span.covers (span : Span) (line character : Int) : Bool :=
  span.token.category ≠ .newline ∧ (span.line : Int) = line ∧
    (span.character : Int) ≤ character ∧ character < span.stop

/-- The range of the part of a span on its line. -/
def PositionLibrary.range (library : PositionLibrary π ε) (span : Span) : Except ε (Range π) := do
  let start ← library.make span.line span.character
  let stop ← library.make span.line span.stop
  pure ⟨start, stop⟩

/-- What is shown for a position of a document, if a token is there. -/
def hover (library : PositionLibrary π ε) (document : Text) (line character : Int) :
    Except (HoverFailure ε) (Option (Hover π)) := do
  let spans ← (spans document).mapError .failure
  match spans.find? (·.covers line character) with
  | none => pure none
  | some span => do
    let record ← span.token.pack.mapError .failure
    let range ← (library.range span).mapError .position
    pure (some ⟨span, record, range⟩)

end Lexeme.Editor
