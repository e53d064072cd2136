import Lexeme.Editor.Position
import Lexeme.Encoding.Utf16
import Lexeme.Proofs.Encoding.Utf8
import Lexeme.Proofs.Text.Lines

/-!
# Positions in a document

Where a character stands depends on the text before it and, behind a carriage return, on the
character itself. This is said here of the text alone, character by character, without words or
tokens, together with what the parts of a text between its carriage returns have to do with it.
-/

namespace Lexeme

namespace Utf16

@[simp]
theorem length_cons (c : Char) (text : Text) :
    length (c :: text) = (units c).length + length text :=
  length_append [c] text |>.trans (by simp [length])

theorem length_pos {text : Text} (nonempty : text ≠ []) : 0 < length text := by
  cases text with
  | nil => contradiction
  | cons c rest =>
      rw [length_cons, units]
      split <;> simp only [List.length_cons] <;> omega

end Utf16

namespace Editor.Position

/-- The position behind a character at a position, given the text that follows it. A line feed ends
the line, and so does a carriage return that no line feed follows. Any other character takes as
much of its line as it has 16-bit units. -/
def after (position : Position) (c : Char) (rest : Text) : Position :=
  if c = '\n' ∨ c = '\r' ∧ rest.head? ≠ some '\n' then ⟨position.line + 1, 0⟩
  else ⟨position.line, position.character + (Utf16.units c).length⟩

/-- The position of the character whose bytes start at an offset, if there is one. The first
character of the text stands at the position given. -/
def seekFrom (position : Position) : Text → Nat → Option Position
  | [], _ => none
  | c :: rest, offset =>
    if offset = 0 then some position
    else if offset < (Utf8.encodeChar c).length then none
    else (position.after c rest).seekFrom rest (offset - (Utf8.encodeChar c).length)

/-- The position of the character of a document whose UTF-8 bytes start at an offset. -/
def ofOffset? (document : Text) (offset : Nat) : Option Position :=
  seekFrom ⟨0, 0⟩ document offset

/-- The position behind a text that starts at a position, given what follows the text. -/
def behind (position : Position) : Text → Text → Position
  | [], _ => position
  | c :: text, rest => (position.after c (text ++ rest)).behind text rest

variable {position : Position} {text rest : Text}

theorem behind_append (position : Position) (first second rest : Text) :
    position.behind (first ++ second) rest =
      (position.behind first (second ++ rest)).behind second rest := by
  induction first generalizing position with
  | nil => rfl
  | cons c first inductionHypothesis =>
      rw [List.cons_append, behind, behind, inductionHypothesis, List.append_assoc]

/-- A text moves a position by no more lines and characters than it has 16-bit units. -/
theorem extent_behind_le (position : Position) (text rest : Text) :
    (position.behind text rest).line + (position.behind text rest).character ≤
      position.line + position.character + Utf16.length text := by
  induction text generalizing position with
  | nil => exact Nat.le_add_right _ _
  | cons c text inductionHypothesis =>
      have moved := inductionHypothesis (position.after c (text ++ rest))
      have step : (position.after c (text ++ rest)).line +
          (position.after c (text ++ rest)).character ≤
            position.line + position.character + (Utf16.units c).length := by
        have units_pos : 0 < (Utf16.units c).length := by
          rw [Utf16.units]
          split <;> exact Nat.succ_pos _
        rw [after]
        split
        · dsimp only
          omega
        · dsimp only
          omega
      rw [behind, Utf16.length_cons]
      omega

theorem seekFrom_encode (position : Position) (before : Text) (nonempty : rest ≠ []) :
    position.seekFrom (before ++ rest) (Utf8.encode before).length =
      some (position.behind before rest) := by
  induction before generalizing position with
  | nil =>
      cases rest with
      | nil => contradiction
      | cons c rest => rfl
  | cons c before inductionHypothesis =>
      have size := Utf8.length_encodeChar_pos c
      rw [List.cons_append, seekFrom, Utf8.encode_cons, List.length_append, if_neg (by omega),
        if_neg (by omega), Nat.add_sub_cancel_left, inductionHypothesis]
      rfl

/-- The position behind the parts of a text between its carriage returns: a single part stays on
its line, otherwise the last part is on a line of its own. -/
def behindParts (position : Position) (parts : List Text) : Position :=
  if parts.length ≤ 1 then ⟨position.line, position.character + Utf16.length (parts.headD [])⟩
  else ⟨position.line + (parts.length - 1), Utf16.length (parts.getLastD [])⟩

theorem behindParts_cons_nil (position : Position) (part : Text) (parts : List Text) :
    position.behindParts ([] :: part :: parts) =
      (Position.mk (position.line + 1) 0).behindParts (part :: parts) := by
  cases parts with
  | nil => simp [behindParts]
  | cons next others =>
      simp [behindParts]
      omega

theorem behindParts_cons_cons (position : Position) (c : Char) (part : Text) (parts : List Text) :
    position.behindParts ((c :: part) :: parts) =
      (Position.mk position.line (position.character + (Utf16.units c).length)).behindParts
        (part :: parts) := by
  cases parts with
  | nil => simp [behindParts, Nat.add_assoc]
  | cons next others => simp [behindParts]

/-- Behind a text without line feeds, which does not end within a line break, as many lines are
over as the text has carriage returns. -/
theorem behind_of_noLineFeed (noFeed : '\n' ∉ text)
    (notTorn : ¬(text.getLast? = some '\r' ∧ rest.head? = some '\n')) :
    position.behind text rest = position.behindParts (Text.splitAt '\r' text) := by
  induction text generalizing position with
  | nil => simp [behind, behindParts, Text.splitAt, Utf16.length]
  | cons c text inductionHypothesis =>
      rw [List.mem_cons, not_or] at noFeed
      have tailNotTorn : ¬(text.getLast? = some '\r' ∧ rest.head? = some '\n') := by
        rintro ⟨endsInReturn, startsWithFeed⟩
        apply notTorn
        refine ⟨?_, startsWithFeed⟩
        rw [List.getLast?_cons, endsInReturn]
        rfl
      rw [behind, inductionHypothesis noFeed.2 tailNotTorn]
      cases parted : Text.splitAt '\r' text with
      | nil => exact absurd parted (Text.splitAt_ne_nil '\r' text)
      | cons part parts =>
          by_cases isReturn : c = '\r'
          · -- Only at the end of the text could a line feed follow, and there none does.
            have noFeedNext : (text ++ rest).head? ≠ some '\n' := by
              cases text with
              | nil => exact fun startsWithFeed => notTorn ⟨by rw [isReturn]; rfl, startsWithFeed⟩
              | cons next others =>
                  intro startsWithFeed
                  rw [List.cons_append, List.head?_cons, Option.some.injEq] at startsWithFeed
                  exact noFeed.2 (by simp [startsWithFeed])
            rw [after, if_pos (Or.inr ⟨isReturn, noFeedNext⟩), isReturn,
              Text.splitAt_cons_separator, parted, behindParts_cons_nil]
          · have notEnd : ¬(c = '\n' ∨ c = '\r' ∧ (text ++ rest).head? ≠ some '\n') := by
              rintro (isFeed | ⟨isReturn', _⟩)
              · exact noFeed.1 isFeed.symm
              · exact isReturn isReturn'
            rw [after, if_neg notEnd, Text.splitAt_cons_of_ne isReturn parted,
              behindParts_cons_cons]

end Editor.Position

end Lexeme
