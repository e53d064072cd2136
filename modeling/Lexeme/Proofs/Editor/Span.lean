import Lexeme.Proofs.Editor.Position
import Lexeme.Proofs.Editor.Row

/-!
# Spans stand where their tokens start

Spans are placed one after the other, each where the one before ended. That is where the character
stands with which the span's token starts in the document, because no line break is torn between
two words: the lines that end within a word are counted by its carriage returns, and a line feed is
found in a line break only.
-/

namespace Lexeme.Editor

namespace Span

/-- The number of 16-bit units of a token's text on the line where it starts. -/
def firstLength (token : Token) (text : Text) : Nat :=
  Utf16.length (if token.category = .newline then text else text.takeWhile (· ≠ '\r'))

/-- Where the text behind a token begins if the token's text begins at a position. -/
def next (position : Position) (token : Token) (text : Text) : Position :=
  if token.category = .newline then ⟨position.line + 1, 0⟩
  else position.behindParts (Text.splitAt '\r' text)

variable {token : Token} {text : Text} {words : List (Token × Text)}

theorem place_cons (position : Position) (token : Token) (text : Text)
    (words : List (Token × Text)) :
    place position.line position.character ((token, text) :: words) =
      ⟨token, text, position.line, position.character, firstLength token text⟩ ::
        place (next position token text).line (next position token text).character words := by
  rw [place, firstLength, next]
  split
  · rfl
  · simp only [Position.behindParts, Text.headD_splitAt]
    split <;> rfl

/-- Whatever is read off the tokens and texts of spans is read off the words placed. -/
theorem map_place {β : Type} (read : Token × Text → β) (line character : Nat)
    (words : List (Token × Text)) :
    (place line character words).map (fun span => read (span.token, span.text)) =
      words.map read := by
  induction words generalizing line character with
  | nil => rfl
  | cons word words inductionHypothesis =>
      rw [place_cons ⟨line, character⟩ word.1 word.2, List.map_cons, inductionHypothesis,
        List.map_cons]

/-- A word moves the place of what comes next as its characters move the position. -/
theorem next_eq_behind {offset : Nat} (row : IsRow offset ((token, text) :: words))
    (position : Position) :
    next position token text = position.behind text (words.flatMap Prod.snd) := by
  cases row with
  | cons starts nonempty lineBreak noFeed notTorn others =>
      rw [next]
      split
      · next isNewline =>
          rcases lineBreak isNewline with rfl | rfl
          · simp [Position.behind, Position.after]
          · simp [Position.behind, Position.after]
      · next notNewline =>
          exact (Position.behind_of_noLineFeed (noFeed notNewline) notTorn).symm

/-- Words in a row behind some text are placed where their first characters stand. -/
theorem positions_of_row {before : Text} (row : IsRow (Utf8.encode before).length words)
    {position : Position}
    (starts : position = Position.behind ⟨0, 0⟩ before (words.flatMap Prod.snd)) :
    ∀ span ∈ place position.line position.character words, ∃ offset : Nat,
      span.token.offset = offset ∧
        Position.ofOffset? (before ++ words.flatMap Prod.snd) offset =
          some ⟨span.line, span.character⟩ ∧
        span.length = firstLength span.token span.text := by
  -- Each word goes over to the text before, so that the positions remain those of the whole.
  induction words generalizing before position with
  | nil => simp [place]
  | cons word words inductionHypothesis =>
      rcases word with ⟨token, text⟩
      have onward := next_eq_behind row position
      cases row with
      | cons starts' nonempty lineBreak noFeed notTorn others =>
          rw [place_cons, List.forall_mem_cons]
          constructor
          · refine ⟨_, starts', ?_, rfl⟩
            rw [Position.ofOffset?, Position.seekFrom_encode _ _ (by simp [nonempty]), ← starts]
          · rw [← List.length_append, ← Utf8.encode_append] at others
            have placed := inductionHypothesis others (onward.trans (by
              rw [starts, Position.behind_append, List.flatMap_cons]))
            rwa [List.flatMap_cons, ← List.append_assoc]

end Span

/-- Every document has spans, which are its tokens with the words of its scan, and the words make
up the document. A span's line and character are the position of the character that its token
starts with, and its length is that of the part of the word before its first carriage return, or
of the whole word for a line break. The length of a byte string in memory never exceeds the largest
index. -/
theorem spans_stand_where_tokens_start {document : Text}
    (addressable : ((Utf8.encode document).length : Int) ≤ Source.maxIndex) :
    ∃ placed, spans document = .ok placed ∧
      placed.flatMap Span.text = document ∧
      tokenize (Utf8.encode document) documentEncoding = .ok (placed.map Span.token) ∧
      (scan (Utf8.encode document) documentEncoding).items =
        placed.map (fun span => (span.token.offset, span.text)) ∧
      ∀ span ∈ placed, ∃ offset : Nat, span.token.offset = offset ∧
        Position.ofOffset? document offset = some ⟨span.line, span.character⟩ ∧
        span.length = Utf16.length
          (if span.token.category = .newline then span.text
            else span.text.takeWhile (· ≠ '\r')) := by
  rcases exists_row_of_document addressable with ⟨items, scanned, drawn, row, joined⟩
  refine ⟨Span.place 0 0 (classified items), ?_, ?_, ?_, ?_, ?_⟩
  · rw [spans, drawn]
    rfl
  · rw [List.flatMap_def, Span.map_place Prod.snd, ← List.flatMap_def, joined]
  · rw [tokenize_eq, scanned, Span.map_place Prod.fst, classified, List.map_map]
    rfl
  · rw [scanned, Span.map_place (fun word => (word.1.offset, word.2)), classified, List.map_map]
    exact (List.map_id items).symm
  · have positions := @Span.positions_of_row (classified items) [] row ⟨0, 0⟩ rfl
    rwa [List.nil_append, joined] at positions

/-- A word has one character before its carriage return and characters of three units behind it.
The line break after the word stands on the second line, three units in. -/
theorem spans_stand_where_tokens_start_of_return :
    ((Utf8.encode ['é', '\r', '😀', 'x', '\r', '\n', '+']).length : Int) ≤ Source.maxIndex ∧
      ∃ placed, spans ['é', '\r', '😀', 'x', '\r', '\n', '+'] = .ok placed ∧
        placed.map (fun span => (span.token.offset, span.text)) =
          [(0, ['é', '\r', '😀', 'x']), (8, ['\r', '\n']), (10, ['+'])] ∧
        ∀ span ∈ placed, span.token.offset = 8 → span.line = 1 ∧ span.character = 3 := by
  have addressable : ((Utf8.encode ['é', '\r', '😀', 'x', '\r', '\n', '+']).length : Int) ≤
      Source.maxIndex := by decide
  have scanned : scan (Utf8.encode ['é', '\r', '😀', 'x', '\r', '\n', '+']) documentEncoding =
      ⟨[(0, ['é', '\r', '😀', 'x']), (8, ['\r', '\n']), (10, ['+'])], none⟩ := by
    have cut : Piece.cut (Utf8.encode ['é', '\r', '😀', 'x', '\r', '\n', '+']) =
        [.run (Utf8.encode ['é', '\r', '😀', 'x']), .mark [0x0d, 0x0a], .mark [0x2b]] := rfl
    rw [scan, cut]
    simp only [Piece.words, Piece.text, Encoding.decodeNamed_eq hasName_documentEncoding]
    rfl
  rcases spans_stand_where_tokens_start addressable with
    ⟨placed, spanned, _, _, words, positions⟩
  refine ⟨addressable, placed, spanned, by rw [← words, scanned], ?_⟩
  intro span spanMem atBreak
  rcases positions span spanMem with ⟨offset, starts, position, _⟩
  obtain rfl : offset = 8 := by omega
  have computed : Position.ofOffset? ['é', '\r', '😀', 'x', '\r', '\n', '+'] 8 = some ⟨1, 3⟩ := rfl
  rw [computed, Option.some.injEq, Position.mk.injEq] at position
  exact ⟨position.1.symm, position.2.symm⟩

end Lexeme.Editor
