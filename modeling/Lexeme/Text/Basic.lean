/-!
# Text and bytes

Source files are read as bytes and words are handed on as text. Both are plain
lists, so that cutting, joining and decoding are list operations and facts about
them are proved by induction.
-/

namespace Lexeme

/-- Text is a list of Unicode scalar values. -/
abbrev Text := List Char

abbrev Bytes := List UInt8

namespace Text

def alignRight (width : Nat) (text : Text) : Text :=
  List.replicate (width - text.length) ' ' ++ text

def alignLeft (width : Nat) (text : Text) : Text :=
  text ++ List.replicate (width - text.length) ' '

/-- The parts of a text between the occurrences of a separator: always one more
part than there are separators. -/
def splitAt (separator : Char) : Text → List Text
  | [] => [[]]
  | c :: rest =>
    match splitAt separator rest with
    | [] => [[c]]
    | part :: parts =>
      if c = separator then [] :: part :: parts else (c :: part) :: parts

theorem splitAt_ne_nil (separator : Char) (text : Text) : splitAt separator text ≠ [] := by
  cases text with
  | nil => simp [splitAt]
  | cons c rest =>
    unfold splitAt
    split
    · simp
    · split <;> simp

def joinWith (separator : Text) : List Text → Text
  | [] => []
  | [text] => text
  | text :: texts => text ++ separator ++ joinWith separator texts

theorem joinWith_cons (separator text : Text) {texts : List Text} (nonempty : texts ≠ []) :
    joinWith separator (text :: texts) = text ++ separator ++ joinWith separator texts := by
  cases texts with
  | nil => exact absurd rfl nonempty
  | cons next rest => rfl

theorem joinWith_splitAt (separator : Char) (text : Text) :
    joinWith [separator] (splitAt separator text) = text := by
  induction text with
  | nil => rfl
  | cons c rest inductionHypothesis =>
    unfold splitAt
    split
    · next empty => exact absurd empty (splitAt_ne_nil separator rest)
    · next part parts parted =>
      rw [parted] at inductionHypothesis
      split
      · next same =>
        rw [joinWith_cons _ _ (by simp), inductionHypothesis, same]
        rfl
      · cases parts with
        | nil => simpa [joinWith] using inductionHypothesis
        | cons next others =>
          rw [joinWith_cons _ _ (by simp)] at inductionHypothesis ⊢
          simpa using inductionHypothesis

end Text

end Lexeme
