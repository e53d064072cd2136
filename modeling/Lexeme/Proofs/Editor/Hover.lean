import Lexeme.Editor.Workspace
import Lexeme.Proofs.Editor.SemanticData
import Lexeme.Proofs.Packed.Correspondence
import Lexeme.Proofs.Text.Hex
import Mathlib.Data.List.TakeWhile

/-!
# What a hover shows

The parts of spans on their lines do not overlap, so the first span that covers a position is the
only one. A hover shows that span, in whichever way the position is found, and the record in its
text is that of the span's token. To mark the range of a span the editor's library has to make the
positions at its ends, which it does for all numbers that a position can have, and for no others.
-/

namespace Lexeme.Editor

namespace Span

variable {first second span : Span} {placed : List Span} {line character : Int}

/-- Whether a span is that of no line break and a position lies in its part on its line. -/
def IsUnder (span : Span) (line character : Int) : Prop :=
  span.token.category ≠ .newline ∧ (span.line : Int) = line ∧
    (span.character : Int) ≤ character ∧ character < span.character + span.length

instance (span : Span) (line character : Int) : Decidable (span.IsUnder line character) :=
  inferInstanceAs (Decidable (_ ∧ _ ∧ _ ∧ _))

theorem covers_eq (span : Span) (line character : Int) :
    span.covers line character = decide (span.IsUnder line character) := by
  rw [covers, decide_eq_decide, IsUnder, stop, Int.natCast_add]

theorem not_isUnder_of_precedes (precedes : first.highlight.Precedes second.highlight)
    (under : first.IsUnder line character) : ¬second.IsUnder line character := by
  simp only [Highlight.Precedes, highlight] at precedes
  simp only [IsUnder] at under ⊢
  omega

/-- Of spans that follow each other at most one is under a position. -/
theorem length_filter_isUnder_le_one
    (ordered : placed.Pairwise fun first second => first.highlight.Precedes second.highlight)
    (line character : Int) :
    (placed.filter fun span => span.IsUnder line character).length ≤ 1 := by
  induction placed with
  | nil => exact Nat.zero_le 1
  | cons span rest inductionHypothesis =>
      rw [List.pairwise_cons] at ordered
      by_cases under : span.IsUnder line character
      · have noOther : rest.filter (fun span => span.IsUnder line character) = [] := by
          apply List.filter_eq_nil_iff.mpr
          intro other otherMem otherUnder
          exact not_isUnder_of_precedes (ordered.1 other otherMem) under
            (of_decide_eq_true otherUnder)
        rw [List.filter_cons, if_pos (decide_eq_true under), noOther, List.length_singleton]
      · rw [List.filter_cons, if_neg (by simpa using under)]
        exact inductionHypothesis ordered.2

/-- So the first span that is found under a position is any that is there. -/
theorem find?_covers_eq_some
    (ordered : placed.Pairwise fun first second => first.highlight.Precedes second.highlight)
    (spanMem : span ∈ placed) (under : span.IsUnder line character) :
    placed.find? (·.covers line character) = some span := by
  have few := length_filter_isUnder_le_one ordered line character
  have member : span ∈ placed.filter fun span => span.IsUnder line character :=
    List.mem_filter.mpr ⟨spanMem, decide_eq_true under⟩
  simp only [covers_eq]
  rw [← List.head?_filter]
  cases only : placed.filter fun span => decide (span.IsUnder line character) with
  | nil =>
      rw [only] at member
      contradiction
  | cons head tail =>
      rw [only, List.length_cons] at few
      obtain rfl : tail = [] := List.length_eq_zero_iff.mp (by omega)
      rw [only, List.mem_singleton] at member
      rw [List.head?_cons, member]

theorem firstLength_le (token : Token) (text : Text) :
    firstLength token text ≤ Utf16.length text := by
  rw [firstLength]
  split
  · exact Nat.le_refl _
  · conv_rhs => rw [← List.takeWhile_append_dropWhile (p := (· ≠ '\r')) (l := text)]
    rw [Utf16.length_append]
    exact Nat.le_add_right _ _

/-- Lines and characters taken together, no span lies further than the text before it is long. -/
theorem extent_le {offset : Nat} {words : List (Token × Text)} (row : IsRow offset words)
    (position : Position) :
    ∀ span ∈ place position.line position.character words,
      span.line + span.stop ≤
        position.line + position.character + Utf16.length (words.flatMap Prod.snd) := by
  induction words generalizing offset position with
  | nil => simp [place]
  | cons word words inductionHypothesis =>
      rcases word with ⟨token, text⟩
      have onward := next_eq_behind row position
      have moved := position.extent_behind_le text (words.flatMap Prod.snd)
      have first_le := firstLength_le token text
      cases row with
      | cons _ _ _ _ _ others =>
          rw [place_cons, List.forall_mem_cons, List.flatMap_cons, Utf16.length_append]
          dsimp only
          constructor
          · simp only [stop]
            omega
          · intro span spanMem
            have later := inductionHypothesis others (next position token text) span spanMem
            rw [onward] at later
            omega

/-- What is coloured is no line break. -/
theorem ne_newline_of_isColoured (coloured : span.isColoured = true) :
    span.token.category ≠ .newline := by
  intro isNewline
  rw [isColoured, isNewline] at coloured
  contradiction

end Span

variable {π ε : Type} {library : PositionLibrary π ε}

namespace PositionLibrary

/-- What the editor's library is documented to do: it makes a position of two numbers exactly if
both of them are from zero to the largest one, and a position tells the numbers that it was made
of. -/
structure IsDocumented (library : PositionLibrary π ε) : Prop where
  makes_iff : ∀ line character : Int, (∃ position, library.make line character = .ok position) ↔
    (0 ≤ line ∧ line ≤ maxCoordinate) ∧ 0 ≤ character ∧ character ≤ maxCoordinate
  tells : ∀ line character position, library.make line character = .ok position →
    library.line position = line ∧ library.character position = character

/-- Whether a range, as the library tells it, goes from one character of a line to another. -/
structure Delimits (library : PositionLibrary π ε) (range : Range π) (line start stop : Int) :
    Prop where
  start : library.line range.start = line ∧ library.character range.start = start
  stop : library.line range.stop = line ∧ library.character range.stop = stop

/-- Whether a hover shows a span: it marks the span's part on its line, and the digits at the end of
its text are read back as the span's token. -/
structure Shows (library : PositionLibrary π ε) (shown : Hover π) (span : Span) : Prop where
  range : library.Delimits shown.range span.line span.character (span.character + span.length)
  record : ∃ before digits record,
    shown.markdown.toList = before ++ "packed `".toList ++ digits ++ ['`'] ∧ '`' ∉ digits ∧
      Hex.parse? (digits.filter (· ≠ ' ')) = some record ∧ Token.unpack record = .ok span.token

end PositionLibrary

/-- Whether the numbers at both ends of a span's part on its line can be those of positions. -/
def Span.HasPositions (span : Span) : Prop :=
  span.line ≤ maxCoordinate ∧ span.stop ≤ maxCoordinate

namespace PositionLibrary.IsDocumented

variable {span : Span}

theorem exists_range (documented : library.IsDocumented) (hasPositions : span.HasPositions) :
    ∃ range, library.range span = .ok range ∧
      library.Delimits range span.line span.character (span.character + span.length) := by
  rcases hasPositions with ⟨line_le, stop_le⟩
  rw [Span.stop] at stop_le
  rcases (documented.makes_iff span.line span.character).mpr (by omega) with ⟨start, madeStart⟩
  rcases (documented.makes_iff span.line span.stop).mpr (by rw [Span.stop]; omega) with
    ⟨stop, madeStop⟩
  refine ⟨⟨start, stop⟩, ?_, documented.tells _ _ _ madeStart, ?_⟩
  · rw [range, madeStart, madeStop]
    rfl
  · rw [← Int.natCast_add]
    exact documented.tells _ _ _ madeStop

theorem exists_problem (documented : library.IsDocumented) (beyond : ¬span.HasPositions) :
    ∃ problem, library.range span = .error problem := by
  cases made : library.range span with
  | error problem => exact ⟨problem, rfl⟩
  | ok range =>
      rcases Except.bind_eq_ok_iff.mp made with ⟨start, _, made⟩
      rcases Except.bind_eq_ok_iff.mp made with ⟨stop, madeStop, _⟩
      have inside := (documented.makes_iff _ _).mp ⟨stop, madeStop⟩
      exact absurd ⟨by omega, by omega⟩ beyond

end PositionLibrary.IsDocumented

variable {document : Text} {placed : List Span} {line character : Int}

/-- What a hover answers where all tokens have records. -/
theorem hover_eq (library : PositionLibrary π ε) (spanned : spans document = .ok placed)
    (packable : ∀ span ∈ placed, span.token.IsPackable) (line character : Int) :
    hover library document line character =
      match placed.find? (·.covers line character) with
      | none => .ok none
      | some span => ((library.range span).mapError .position).map fun range =>
        some ⟨span, span.token.record, range⟩ := by
  rw [hover, spanned]
  cases found : placed.find? (·.covers line character) with
  | none =>
      simp only [Except.mapError, bind, Except.bind, found]
      rfl
  | some span =>
      have spanPackable := packable span (List.mem_of_find?_eq_some found)
      simp only [Except.mapError, bind, Except.bind, found, Token.pack_of_isPackable spanPackable]
      cases library.range span <;> rfl

/-- The text of a hover ends in the record between backticks, which is read back. -/
theorem markdown_eq (shown : Hover π) :
    ∃ before, shown.markdown.toList =
      before ++ "packed `".toList ++ Hex.spaced shown.record ++ ['`'] := by
  have label : "`, packed `".toList = "`, ".toList ++ "packed `".toList := by
    rfl
  unfold Hover.markdown
  simp only [String.toList_append, String.toList_ofList, label]
  exact ⟨_, by rw [← List.append_assoc]; rfl⟩

theorem shows_of_delimits {span : Span} (packable : span.token.IsPackable) {range : Range π}
    (delimits : library.Delimits range span.line span.character (span.character + span.length)) :
    library.Shows ⟨span, span.token.record, range⟩ span where
  range := delimits
  record := by
    rcases markdown_eq ⟨span, span.token.record, range⟩ with ⟨before, text⟩
    exact ⟨before, _, span.token.record, text, Hex.backtick_notMem_spaced _,
      Hex.parse?_spaced _, Token.unpack_record packable⟩

/-- Over a span a hover shows it, provided that there are positions for its range. -/
theorem hover_of_isUnder (documented : library.IsDocumented)
    (spanned : spans document = .ok placed)
    (packable : ∀ span ∈ placed, span.token.IsPackable)
    (ordered : placed.Pairwise fun first second => first.highlight.Precedes second.highlight)
    {span : Span} (spanMem : span ∈ placed) (under : span.IsUnder line character) :
    (span.HasPositions → ∃ shown, hover library document line character = .ok (some shown) ∧
      library.Shows shown span) ∧
    (¬span.HasPositions → ∃ problem,
      hover library document line character = .error (.position problem)) := by
  have answered := hover_eq library spanned packable line character
  rw [Span.find?_covers_eq_some ordered spanMem under] at answered
  dsimp only at answered
  constructor
  · intro hasPositions
    rcases documented.exists_range hasPositions with ⟨range, made, delimits⟩
    rw [made] at answered
    exact ⟨_, answered, shows_of_delimits (packable span spanMem) delimits⟩
  · intro beyond
    rcases documented.exists_problem beyond with ⟨problem, refused⟩
    rw [refused] at answered
    exact ⟨problem, answered⟩

theorem hover_eq_none_iff (library : PositionLibrary π ε) (spanned : spans document = .ok placed)
    (packable : ∀ span ∈ placed, span.token.IsPackable) (line character : Int) :
    hover library document line character = .ok none ↔
      ∀ span ∈ placed, ¬span.IsUnder line character := by
  rw [hover_eq library spanned packable]
  cases found : placed.find? (·.covers line character) with
  | none => simpa [Span.covers_eq] using found
  | some span =>
      have covered := List.find?_some found
      rw [Span.covers_eq, decide_eq_true_eq] at covered
      simp only [Except.map_eq_ok_iff, reduceCtorEq, and_false, exists_false, false_iff]
      intro noneUnder
      exact noneUnder span (List.mem_of_find?_eq_some found) covered

/-- The spans of a document, in order, and their tokens. -/
theorem exists_spans (addressable : ((Utf8.encode document).length : Int) ≤ Source.maxIndex) :
    ∃ placed, spans document = .ok placed ∧
      placed.Pairwise (fun first second => first.highlight.Precedes second.highlight) ∧
      tokenize (Utf8.encode document) documentEncoding = .ok (placed.map Span.token) ∧
      ∀ span ∈ placed, span.line + span.stop ≤ Utf16.length document := by
  rcases exists_row_of_document addressable with ⟨items, scanned, drawn, row, joined⟩
  refine ⟨Span.place 0 0 (classified items), ?_, Span.pairwise_place row ⟨0, 0⟩, ?_, ?_⟩
  · rw [spans, drawn]
    rfl
  · rw [tokenize_eq, scanned, Span.map_place Prod.fst, classified, List.map_map]
    rfl
  · have extents := Span.extent_le row ⟨0, 0⟩
    rw [joined] at extents
    simpa using extents

/-- All tokens of a document of at most 2 ^ 32 bytes have records. -/
theorem isPackable_of_tokenize (small : (Utf8.encode document).length ≤ 2 ^ 32)
    {tokens : List Token}
    (tokenized : tokenize (Utf8.encode document) documentEncoding = .ok tokens) :
    ∀ token ∈ tokens, token.IsPackable := by
  intro token tokenMem
  have inside := (offsets_of_tokenize tokenized).1 token tokenMem
  refine ⟨inside.1, ?_⟩
  rw [Token.maxOffset]
  omega

/-- A hover shows the one token under the cursor. At every position there is at most one span that
is not that of a line break; a hover answers with nothing exactly if there is none, and otherwise it
marks the range of this span, and the digits at the end of its text are those of the record of the
span's token. Wherever the cursor rests on a semantic token of the document, a hover marks the range
of this semantic token. All this is as long as the range has positions at both ends, as every range
has in a document of fewer than 2 ^ 31 units; for any other one the library refuses to make them. -/
theorem hover_shows_token_under_cursor (documented : library.IsDocumented) {document : Text}
    (small : (Utf8.encode document).length ≤ 2 ^ 32) :
    ∃ placed data highlights, spans document = .ok placed ∧
      semanticData document = .ok data ∧ Highlight.readFrom 0 0 data = some highlights ∧
      (∀ line character : Int,
        (placed.filter fun span => span.IsUnder line character).length ≤ 1 ∧
        (hover library document line character = .ok none ↔
          ∀ span ∈ placed, ¬span.IsUnder line character) ∧
        ∀ span ∈ placed, span.IsUnder line character →
          (span.HasPositions → ∃ shown,
            hover library document line character = .ok (some shown) ∧
            library.Shows shown span) ∧
          (¬span.HasPositions → ∃ problem,
            hover library document line character = .error (.position problem))) ∧
      (∀ highlight ∈ highlights, ∀ character, highlight.character ≤ character →
        character < highlight.character + highlight.length → highlight.line ≤ maxCoordinate →
        highlight.character + highlight.length ≤ maxCoordinate →
        ∃ shown, hover library document highlight.line character = .ok (some shown) ∧
          library.Delimits shown.range highlight.line highlight.character
            (highlight.character + highlight.length)) ∧
      (Utf16.length document ≤ maxCoordinate → ∀ span ∈ placed, span.HasPositions) := by
  have addressable : ((Utf8.encode document).length : Int) ≤ Source.maxIndex := by
    rw [Source.maxIndex]
    omega
  rcases exists_spans addressable with ⟨placed, spanned, ordered, tokenized, extents⟩
  have packable : ∀ span ∈ placed, span.token.IsPackable := by
    intro span spanMem
    exact isPackable_of_tokenize small tokenized span.token (List.mem_map_of_mem spanMem)
  refine ⟨placed, _, _, spanned, by rw [semanticData, spanned]; rfl,
    Span.readFrom_dataFrom 0 0 _, ?_, ?_, ?_⟩
  · intro line character
    refine ⟨Span.length_filter_isUnder_le_one ordered line character,
      hover_eq_none_iff library spanned packable line character, ?_⟩
    intro span spanMem under
    exact hover_of_isUnder documented spanned packable ordered spanMem under
  · intro highlight highlightMem character fromStart beforeStop line_le stop_le
    rcases List.mem_map.mp highlightMem with ⟨span, colouredMem, rfl⟩
    rcases List.mem_filter.mp colouredMem with ⟨spanMem, coloured⟩
    have under : span.IsUnder span.line character :=
      ⟨Span.ne_newline_of_isColoured coloured, rfl, fromStart, beforeStop⟩
    have hasPositions : span.HasPositions := by
      simp only [Span.highlight] at line_le stop_le
      rw [Span.HasPositions, Span.stop]
      omega
    rcases (hover_of_isUnder documented spanned packable ordered spanMem under).1 hasPositions with
      ⟨shown, answered, shows⟩
    exact ⟨shown, answered, shows.range⟩
  · intro short span spanMem
    have bound := extents span spanMem
    exact ⟨by omega, by omega⟩

theorem readCoordinate_int_eq_ok_iff {axis : Axis} {n : Int} {coordinate : Nat} :
    readCoordinate axis (.int n) = .ok coordinate ↔
      n = coordinate ∧ coordinate ≤ maxCoordinate := by
  rw [readCoordinate, coordinate?]
  split
  · next found =>
      simp only [Option.ite_none_right_eq_some, Option.some.injEq] at found
      simp only [Except.ok.injEq]
      omega
  · next outside =>
      simp only [ite_eq_right_iff, reduceCtorEq, imp_false] at outside
      simp only [reduceCtorEq, false_iff]
      omega

theorem ofData_int_eq_ok_iff {position : Position} :
    Position.ofData (.int line) (.int character) = .ok position ↔
      line = position.line ∧ character = position.character ∧
        position.line ≤ maxCoordinate ∧ position.character ≤ maxCoordinate := by
  simp only [Position.ofData, Except.bind_eq_ok_iff, readCoordinate_int_eq_ok_iff, pure,
    Except.pure, Except.ok.injEq]
  constructor
  · rintro ⟨_, ⟨rfl, line_le⟩, _, ⟨rfl, character_le⟩, rfl⟩
    exact ⟨rfl, rfl, line_le, character_le⟩
  · rintro ⟨rfl, rfl, line_le, character_le⟩
    exact ⟨_, ⟨rfl, line_le⟩, _, ⟨rfl, character_le⟩, rfl⟩

/-- Positions as they come from the editor are checked as the library is documented to. -/
theorem Position.isDocumented_library : Position.library.IsDocumented where
  makes_iff line character := by
    constructor
    · rintro ⟨position, made⟩
      rcases ofData_int_eq_ok_iff.mp made with ⟨rfl, rfl, line_le, character_le⟩
      omega
    · rintro ⟨⟨line_nonneg, line_le⟩, character_nonneg, character_le⟩
      refine ⟨⟨line.toNat, character.toNat⟩, ofData_int_eq_ok_iff.mpr ?_⟩
      dsimp only
      omega
  tells line character position made := by
    rcases ofData_int_eq_ok_iff.mp made with ⟨rfl, rfl, _⟩
    exact ⟨rfl, rfl⟩

/-- Behind the carriage return within the first word the cursor rests on the literal. -/
theorem hover_shows_token_under_cursor_of_return :
    Position.library.IsDocumented ∧
      (Utf8.encode ['a', '\r', 'b', ' ', '+']).length ≤ 2 ^ 32 ∧
      ∃ shown, hover Position.library ['a', '\r', 'b', ' ', '+'] 1 2 = .ok (some shown) ∧
        Position.library.Shows shown ⟨⟨4, .plus⟩, ['+'], 1, 2, 1⟩ := by
  have small : (Utf8.encode ['a', '\r', 'b', ' ', '+']).length ≤ 2 ^ 32 := by
    decide
  have spanned : spans ['a', '\r', 'b', ' ', '+'] =
      .ok [⟨⟨0, .unclassified⟩, ['a', '\r', 'b'], 0, 0, 1⟩, ⟨⟨3, .space⟩, [' '], 1, 1, 1⟩,
        ⟨⟨4, .plus⟩, ['+'], 1, 2, 1⟩] := by
    rfl
  rcases hover_shows_token_under_cursor Position.isDocumented_library small with
    ⟨placed, _, _, spannedAgain, _, _, atPositions, _, inRange⟩
  rw [spanned, Except.ok.injEq] at spannedAgain
  subst spannedAgain
  have literalMem : (⟨⟨4, .plus⟩, ['+'], 1, 2, 1⟩ : Span) ∈
      [⟨⟨0, .unclassified⟩, ['a', '\r', 'b'], 0, 0, 1⟩, ⟨⟨3, .space⟩, [' '], 1, 1, 1⟩,
        ⟨⟨4, .plus⟩, ['+'], 1, 2, 1⟩] := by
    simp
  have literalUnder : Span.IsUnder ⟨⟨4, .plus⟩, ['+'], 1, 2, 1⟩ 1 2 := by
    decide
  have hasPositions := inRange (by decide) _ literalMem
  exact ⟨Position.isDocumented_library, small,
    ((atPositions 1 2).2.2 _ literalMem literalUnder).1 hasPositions⟩

section LongLine

/-- A document that is a single run without a carriage return has a single span. -/
theorem spans_of_isRun {document : Text} (isRun : Slice.IsRun (Utf8.encode document))
    (noReturn : '\r' ∉ document)
    (addressable : ((Utf8.encode document).length : Int) ≤ Source.maxIndex) :
    spans document =
      .ok [⟨Token.ofWord 0 document, document, 0, 0, Utf16.length document⟩] := by
  rcases exists_row_of_document addressable with ⟨items, scanned, drawn, _, joined⟩
  have cut : Piece.cut (Utf8.encode document ++ []) =
      .run (Utf8.encode document) :: Piece.cut [] :=
    Piece.cut_run_append isRun nofun (by simp)
  rw [List.append_nil] at cut
  rw [scan, cut] at scanned
  rcases Piece.words_cons_eq scanned with ⟨text, others, _, scannedOthers, rfl⟩
  obtain rfl : others = [] := by
    simpa [Piece.cut, Piece.words, Partial.done, eq_comm] using scannedOthers
  obtain rfl : text = document := by simpa [classified] using joined
  have whole : Span.firstLength (Token.ofWord 0 text) text = Utf16.length text := by
    have unbroken : text.takeWhile (· ≠ '\r') = text := by
      apply List.takeWhile_eq_self_iff.mpr
      intro c cMem
      apply decide_eq_true
      rintro rfl
      exact noReturn cMem
    rw [Span.firstLength, unbroken, ite_self]
  have placed := Span.place_cons ⟨0, 0⟩ (Token.ofWord 0 text) text []
  rw [whole] at placed
  rw [spans, drawn]
  exact congrArg Except.ok placed

theorem encode_replicate (n : Nat) :
    Utf8.encode (List.replicate n 'a') = List.replicate n 0x61 := by
  induction n with
  | zero => rfl
  | succ n inductionHypothesis =>
      rw [List.replicate_succ, Utf8.encode_cons, inductionHypothesis]
      rfl

theorem length_replicate (n : Nat) : Utf16.length (List.replicate n 'a') = n := by
  induction n with
  | zero => rfl
  | succ n inductionHypothesis =>
      rw [List.replicate_succ, Utf16.length_cons, inductionHypothesis, Nat.add_comm]
      rfl

/-- A range that ends too far to the right is refused for its end. -/
theorem range_eq_error (span : Span) (line_le : span.line ≤ maxCoordinate)
    (start_le : span.character ≤ maxCoordinate) (beyond : maxCoordinate < span.stop) :
    Position.library.range span = .error ⟨.character, .int span.stop⟩ := by
  have first : Position.library.make span.line span.character =
      .ok ⟨span.line, span.character⟩ :=
    ofData_int_eq_ok_iff.mpr ⟨rfl, rfl, line_le, start_le⟩
  have lineRead : readCoordinate .line (.int span.line) = .ok span.line :=
    readCoordinate_int_eq_ok_iff.mpr ⟨rfl, line_le⟩
  have tooFar : coordinate? (.int span.stop) = none := if_neg (by omega)
  have stopRead : readCoordinate .character (.int span.stop) =
      .error ⟨.character, .int span.stop⟩ := by
    rw [readCoordinate, tooFar]
  have last : Position.library.make span.line span.stop =
      .error ⟨.character, .int span.stop⟩ := by
    simp only [Position.library, Position.ofData, lineRead, stopRead]
    rfl
  rw [PositionLibrary.range]
  exact Except.bind_eq_error_iff.mpr (.inr ⟨_, first, by rw [last]; rfl⟩)

/-- In a line that is a single word the cursor is over this word, even where it is so long that its
end is no position. -/
theorem hover_replicate {n : Nat} (beyond : maxCoordinate < n) (small : n ≤ 2 ^ 32) :
    (∃ span, spans (List.replicate n 'a') = .ok [span] ∧ span.IsUnder 0 0) ∧
      hover Position.library (List.replicate n 'a') 0 0 =
        .error (.position ⟨.character, .int n⟩) := by
  have nonempty : n ≠ 0 := by omega
  have isRun : Slice.IsRun (Utf8.encode (List.replicate n 'a')) := by
    rw [encode_replicate]
    refine ⟨by simpa using nonempty, ?_⟩
    intro byte byteMem
    rw [List.eq_of_mem_replicate byteMem]
    decide
  have noReturn : '\r' ∉ List.replicate n 'a' := by simp
  have addressable : ((Utf8.encode (List.replicate n 'a')).length : Int) ≤ Source.maxIndex := by
    rw [encode_replicate, List.length_replicate, Source.maxIndex]
    omega
  have notNewline : categoryOf (List.replicate n 'a') ≠ .newline := by
    rw [Ne, categoryOf_eq_newline_iff]
    have noFeed : '\n' ∉ List.replicate n 'a' := by simp
    rintro (same | same) <;> simp [same] at noFeed
  have spanned := spans_of_isRun isRun noReturn addressable
  rw [length_replicate] at spanned
  generalize List.replicate n 'a' = document at spanned notNewline
  have under : Span.IsUnder ⟨Token.ofWord 0 document, document, 0, 0, n⟩ 0 0 :=
    ⟨notNewline, rfl, Int.le_refl 0, by dsimp only; omega⟩
  refine ⟨⟨_, spanned, under⟩, ?_⟩
  have packable : ∀ span ∈ [Span.mk (Token.ofWord 0 document) document 0 0 n],
      span.token.IsPackable := by
    simp [Token.isPackable_iff, Token.ofWord]
  have covered : ([Span.mk (Token.ofWord 0 document) document 0 0 n].find? (·.covers 0 0)) =
      some ⟨Token.ofWord 0 document, document, 0, 0, n⟩ := by
    rw [List.find?_cons_of_pos]
    rw [Span.covers_eq]
    exact decide_eq_true under
  have stop : (⟨Token.ofWord 0 document, document, 0, 0, n⟩ : Span).stop = n := Nat.zero_add n
  have refused := range_eq_error ⟨Token.ofWord 0 document, document, 0, 0, n⟩ (Nat.zero_le _)
    (Nat.zero_le _) (by rw [stop]; exact beyond)
  rw [stop] at refused
  rw [hover_eq Position.library spanned packable, covered]
  simp only [refused]
  rfl

/-- A position has no negative number, and of a line of 2 ^ 31 characters, which is a single span,
nothing is shown: its end is no position. -/
theorem overlong_line_is_not_shown :
    Position.library.make (-1) 0 = .error ⟨.line, .int (-1)⟩ ∧
      (Utf8.encode (List.replicate (2 ^ 31) 'a')).length ≤ 2 ^ 32 ∧
      (∃ span, spans (List.replicate (2 ^ 31) 'a') = .ok [span] ∧ span.IsUnder 0 0) ∧
      hover Position.library (List.replicate (2 ^ 31) 'a') 0 0 =
        .error (.position ⟨.character, .int (2 ^ 31 : Nat)⟩) := by
  refine ⟨rfl, ?_, hover_replicate (by decide) (by decide)⟩
  rw [encode_replicate, List.length_replicate]
  decide

end LongLine

end Lexeme.Editor
