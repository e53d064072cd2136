import Lexeme.Category
import Lexeme.Datum

/-!
# Tokens

A token is the offset of a word in its source together with the word's category; the
word's text is not kept. A mark is a token whose category has not been checked: any value
may stand in its place. In a draft any value may stand in either place. Every token is a
mark, and every mark a draft.
-/

namespace Lexeme

/-- A classified word: where it starts, in bytes, and what it is. -/
structure Token where
  offset : Int
  category : Category
  deriving DecidableEq

namespace Token

/-- The largest offset that a token file can hold. -/
def maxOffset : Int := 0xffffffff

end Token

/-- What stands in the place of a category. -/
inductive Label
  | known (category : Category)
  | other (value : Datum)
  deriving BEq

/-- What a value lacks that stands in the place of a category. -/
inductive LabelProblem
  | nameless (value : Datum)
  | unnumbered (value : Datum)

def LabelProblem.message : LabelProblem → String
  | nameless value => "'" ++ value.typeName ++ "' object has no attribute 'name'"
  | unnumbered value => "'" ++ value.typeName ++ "' object has no attribute 'value'"

def Label.category : Label → Except Datum Category
  | known category => .ok category
  | other value => .error value

/-- A token whose category has not been checked. -/
structure Mark where
  offset : Int
  label : Label
  deriving BEq

def Mark.token (mark : Mark) : Except Datum Token :=
  mark.label.category.map (⟨mark.offset, ·⟩)

/-- Whatever can be seen as a mark. -/
class ToMark (α : Type) where
  toMark : α → Mark

export ToMark (toMark)

instance : ToMark Mark := ⟨id⟩

instance : ToMark Token := ⟨fun token => ⟨token.offset, .known token.category⟩⟩

instance : Coe Token Mark := ⟨toMark⟩

@[simp]
theorem toMark_mark (mark : Mark) : toMark mark = mark := rfl

@[simp]
theorem toMark_token (token : Token) : toMark token = ⟨token.offset, .known token.category⟩ :=
  rfl

/-- Tokens agree as marks only if they are the same. -/
theorem toMark_beq_toMark {token other : Token} :
    (toMark token == toMark other) = true ↔ token = other := by
  obtain ⟨offset, category⟩ := token
  obtain ⟨otherOffset, otherCategory⟩ := other
  simp [BEq.beq, instBEqMark.beq, instBEqLabel.beq]

/-- A token whose parts have not been checked. -/
structure Draft where
  offset : Datum
  label : Label

def Mark.toDraft (mark : Mark) : Draft :=
  ⟨.int mark.offset, mark.label⟩

def Token.toDraft (token : Token) : Draft :=
  ⟨.int token.offset, .known token.category⟩

namespace Category

def ofDatum? (value : Datum) : Option Category :=
  all.find? fun category => value == .int category.ordinal

end Category

end Lexeme
