import Lexeme.Locate
import Lexeme.Word

/-!
# Tokens on editor lines

An editor addresses a document by line and by character within the line, counted in
16-bit units. A line feed, a carriage return, and the two together each end a line. Within
a run a lone carriage return breaks the line, so a run may cover several lines; its span
is the part on the line where it starts.
-/

namespace Lexeme.Editor

/-- A token placed on an editor line. -/
structure Span where
  token : Token
  text : Text
  line : Nat
  character : Nat
  /-- The number of 16-bit units of the part on the first line. -/
  length : Nat

namespace Span

/-- The character after a span's last one on its line. -/
def stop (span : Span) : Nat :=
  span.character + span.length

/-- Places tokens one after the other, the first of them at a line and a character. -/
def place (line character : Nat) : List (Token × Text) → List Span
  | [] => []
  | (token, text) :: rest =>
    if token.category = .newline then
      ⟨token, text, line, character, Utf16.length text⟩ :: place (line + 1) 0 rest
    else
      let parts := Text.splitAt '\r' text
      let length := Utf16.length (parts.headD [])
      let after :=
        if parts.length ≤ 1 then place line (character + length) rest
        else place (line + (parts.length - 1)) (Utf16.length (parts.getLastD [])) rest
      ⟨token, text, line, character, length⟩ :: after

end Span

def documentEncoding : Text := ['u', 't', 'f', '-', '8']

def tokenTexts (document : Text) : Except Failure (List (Token × Text)) := do
  let data := Utf8.encode document
  let tokens ← tokenize data documentEncoding
  let texts := ((Source.ofBytes data).texts documentEncoding tokens).1
  match texts.failure with
  | some failure => .error failure
  | none => .ok texts.items

def spans (document : Text) : Except Failure (List Span) :=
  (tokenTexts document).map (Span.place 0 0)

end Lexeme.Editor
