import Lexeme.Editor.SemanticData
import Lexeme.Proofs.Editor.Span

/-!
# Semantic tokens read back

An editor reads the numbers of a document by adding them up again. What it gets are the spans that
are coloured, whatever was left out between them. The numbers are never negative, because spans
only move forward: behind a span's part on its line is either the next span or the next line.
-/

namespace Lexeme.Editor

/-- What an editor reads out of five numbers: a line, a character, a length, the index of a type
in the legend, and modifiers. -/
structure Highlight where
  line : Int
  character : Int
  length : Int
  type : Int
  modifiers : Int

namespace Highlight

/-- Reads numbers as an editor does, the first five of them from a line and a character. The line
is added up, and so is the character unless the line is another one. Nothing can be read if a
number is left over. -/
def readFrom (line character : Int) : List Int → Option (List Highlight)
  | [] => some []
  | lines :: characters :: length :: type :: modifiers :: rest =>
    let here := line + lines
    let start := if lines = 0 then character + characters else characters
    (readFrom here start rest).map (⟨here, start, length, type, modifiers⟩ :: ·)
  | _ => none

/-- Whether one highlight is to the left of another on the same line, without touching any of it,
or on a line above. -/
def Precedes (first second : Highlight) : Prop :=
  first.line < second.line ∨
    first.line = second.line ∧ first.character < second.character ∧
      first.character + first.length ≤ second.character

end Highlight

namespace Span

/-- What an editor is told of a span. -/
def highlight (span : Span) : Highlight :=
  ⟨span.line, span.character, span.length,
    (TokenType.ofGroup? span.token.category.group?).index, 0⟩

/-- Whether a span starts at a position or somewhere behind it. -/
def IsFrom (span : Span) (position : Position) : Prop :=
  position.line < span.line ∨ position.line = span.line ∧ position.character ≤ span.character

/-- Behind a word is a later line, or the end of its nonempty part on the line it starts on. -/
theorem next_advances (position : Position) (token : Token) {text : Text} (nonempty : text ≠ []) :
    position.line < (next position token text).line ∨
      position.line = (next position token text).line ∧ 0 < firstLength token text ∧
        position.character + firstLength token text = (next position token text).character := by
  rw [next, firstLength]
  split
  · exact Or.inl (Nat.lt_succ_self position.line)
  · rw [Position.behindParts]
    split
    · next single =>
        right
        rw [← Text.headD_splitAt, Text.splitAt_eq_singleton single]
        exact ⟨rfl, Utf16.length_pos nonempty, rfl⟩
    · next several =>
        left
        dsimp only
        omega

theorem isFrom_of_mem_place {offset : Nat} {words : List (Token × Text)} (row : IsRow offset words)
    (position : Position) :
    ∀ span ∈ place position.line position.character words, span.IsFrom position := by
  induction row generalizing position with
  | nil => simp [place]
  | @cons _ token text _ _ nonempty _ _ _ _ inductionHypothesis =>
      rw [place_cons, List.forall_mem_cons]
      constructor
      · exact Or.inr ⟨rfl, Nat.le_refl _⟩
      · intro span spanMem
        have advanced := next_advances position token nonempty
        have behind := inductionHypothesis (next position token text) span spanMem
        rw [IsFrom] at behind ⊢
        omega

/-- The spans of words in a row follow each other from left to right and from line to line. -/
theorem pairwise_place {offset : Nat} {words : List (Token × Text)} (row : IsRow offset words)
    (position : Position) :
    (place position.line position.character words).Pairwise
      (fun first second => first.highlight.Precedes second.highlight) := by
  induction row generalizing position with
  | nil => exact .nil
  | @cons _ token text _ _ nonempty _ _ _ others inductionHypothesis =>
      rw [place_cons, List.pairwise_cons]
      refine ⟨?_, inductionHypothesis _⟩
      intro span spanMem
      have advanced := next_advances position token nonempty
      have behind := isFrom_of_mem_place others (next position token text) span spanMem
      rw [IsFrom] at behind
      simp only [Highlight.Precedes, highlight]
      omega

theorem length_dataFrom (line character : Nat) (spans : List Span) :
    (dataFrom line character spans).length = 5 * spans.length := by
  induction spans generalizing line character with
  | nil => rfl
  | cons span rest inductionHypothesis =>
      rw [dataFrom, List.length_append, inductionHypothesis, List.length_cons, relativeData]
      simp only [List.length_cons, List.length_nil]
      omega

/-- The numbers of a span are read as this span from where they were taken. -/
theorem readFrom_relativeData (line character : Nat) (span : Span) (data : List Int) :
    Highlight.readFrom line character (span.relativeData line character ++ data) =
      (Highlight.readFrom span.line span.character data).map (span.highlight :: ·) := by
  have sameLine : (line : Int) + (span.line - line) = span.line := by omega
  have sameStart : (character : Int) + (span.character - character) = span.character := by omega
  simp only [relativeData, List.cons_append, List.nil_append, Highlight.readFrom, sameLine]
  by_cases stays : (span.line : Int) - line = 0
  · simp only [if_pos stays, sameStart]
    rfl
  · simp only [if_neg stays]
    rfl

theorem readFrom_dataFrom (line character : Nat) (spans : List Span) :
    Highlight.readFrom line character (dataFrom line character spans) =
      some (spans.map highlight) := by
  induction spans generalizing line character with
  | nil => rfl
  | cons span rest inductionHypothesis =>
      rw [dataFrom, readFrom_relativeData, inductionHypothesis]
      rfl

theorem nonneg_of_mem_relativeData {position : Position} {span : Span}
    (fromPosition : span.IsFrom position) :
    ∀ n ∈ span.relativeData position.line position.character, 0 ≤ n := by
  rw [IsFrom] at fromPosition
  intro n nMem
  simp only [relativeData, List.mem_cons, List.not_mem_nil, or_false] at nMem
  rcases nMem with rfl | rfl | rfl | rfl | rfl
  · omega
  · split <;> omega
  · exact Int.natCast_nonneg span.length
  · exact Int.natCast_nonneg _
  · exact Int.le_refl 0

theorem nonneg_of_mem_dataFrom {position : Position} {spans : List Span}
    (fromPosition : ∀ span ∈ spans, span.IsFrom position)
    (ordered : spans.Pairwise fun first second => first.highlight.Precedes second.highlight) :
    ∀ n ∈ dataFrom position.line position.character spans, 0 ≤ n := by
  induction spans generalizing position with
  | nil => simp [dataFrom]
  | cons span rest inductionHypothesis =>
      rw [List.forall_mem_cons] at fromPosition
      rw [List.pairwise_cons] at ordered
      have restFrom : ∀ other ∈ rest, other.IsFrom ⟨span.line, span.character⟩ := by
        intro other otherMem
        have precedes := ordered.1 other otherMem
        simp only [Highlight.Precedes, highlight] at precedes
        simp only [IsFrom]
        omega
      rw [dataFrom, List.forall_mem_append]
      exact ⟨nonneg_of_mem_relativeData fromPosition.1, inductionHypothesis restFrom ordered.2⟩

end Span

/-- Every document has data, which are numbers that are not negative, five for each span that is
coloured. Reading them gives the places, lengths and types of these spans in order, each of them
behind the end of the one before or on a later line. The length of a byte string in memory never
exceeds the largest index. -/
theorem semantic_data_reads_back {document : Text}
    (addressable : ((Utf8.encode document).length : Int) ≤ Source.maxIndex) :
    ∃ placed data, spans document = .ok placed ∧ semanticData document = .ok data ∧
      (∀ n ∈ data, 0 ≤ n) ∧ 5 ∣ data.length ∧
      Highlight.readFrom 0 0 data =
        some ((placed.filter (·.isColoured)).map Span.highlight) ∧
      ((placed.filter (·.isColoured)).map Span.highlight).Pairwise Highlight.Precedes := by
  rcases exists_row_of_document addressable with ⟨items, _, drawn, row, _⟩
  have spanned : spans document = .ok (Span.place 0 0 (classified items)) := by
    rw [spans, drawn]
    rfl
  have ordered := (Span.pairwise_place row ⟨0, 0⟩).filter (·.isColoured)
  refine ⟨_, _, spanned, by rw [semanticData, spanned]; rfl, ?_, ?_, ?_, ?_⟩
  · apply @Span.nonneg_of_mem_dataFrom ⟨0, 0⟩ _ _ ordered
    intro span spanMem
    exact Span.isFrom_of_mem_place row ⟨0, 0⟩ span (List.mem_of_mem_filter spanMem)
  · rw [Span.length_dataFrom]
    exact Nat.dvd_mul_right 5 _
  · exact Span.readFrom_dataFrom 0 0 _
  · exact List.pairwise_map.mpr ordered

/-- A word with a carriage return in it, a space and a literal: the space is left out, and the
literal is on the line that the carriage return begins. -/
theorem semantic_data_reads_back_of_return :
    ((Utf8.encode ['a', '\r', 'b', ' ', '+']).length : Int) ≤ Source.maxIndex ∧
      ∃ data, semanticData ['a', '\r', 'b', ' ', '+'] = .ok data ∧
        Highlight.readFrom 0 0 data = some [⟨0, 0, 1, 3, 0⟩, ⟨1, 2, 1, 1, 0⟩] := by
  have addressable : ((Utf8.encode ['a', '\r', 'b', ' ', '+']).length : Int) ≤
      Source.maxIndex := by decide
  have scanned : scan (Utf8.encode ['a', '\r', 'b', ' ', '+']) documentEncoding =
      ⟨[(0, ['a', '\r', 'b']), (3, [' ']), (4, ['+'])], none⟩ := by
    have cut : Piece.cut (Utf8.encode ['a', '\r', 'b', ' ', '+']) =
        [.run (Utf8.encode ['a', '\r', 'b']), .mark [0x20], .mark [0x2b]] := rfl
    rw [scan, cut]
    simp only [Piece.words, Piece.text, Encoding.decodeNamed_eq hasName_documentEncoding]
    rfl
  rcases exists_row_of_document addressable with ⟨items, scanned', drawn, _⟩
  obtain rfl : items = [(0, ['a', '\r', 'b']), (3, [' ']), (4, ['+'])] := by
    rw [scanned] at scanned'
    exact congrArg Partial.items scanned'.symm
  rcases semantic_data_reads_back addressable with ⟨placed, data, spanned, given, _, _, read, _⟩
  rw [spans, drawn] at spanned
  obtain rfl := Except.ok.inj spanned
  exact ⟨addressable, data, given, read⟩

end Lexeme.Editor
