import Lexeme.Text.Basic

/-!
# Lexical categories

Every word of a source file belongs to one of twenty categories. A category's
ordinal is its number in token files, so the order of `Category.all` is part of
the file format. All categories but `unclassified` form six groups.
-/

namespace Lexeme

/-- A group of related categories. -/
inductive Group
  | keyword
  | bracket
  | operator
  | separator
  | whitespace
  | quote
  deriving DecidableEq

namespace Group

def all : List Group := [keyword, bracket, operator, separator, whitespace, quote]

/-- The word for a group in messages. -/
def label : Group → String
  | keyword => "keyword"
  | bracket => "bracket"
  | operator => "operator"
  | separator => "separator"
  | whitespace => "whitespace"
  | quote => "quote"

def name : Group → String
  | keyword => "KEYWORD"
  | bracket => "BRACKET"
  | operator => "OPERATOR"
  | separator => "SEPARATOR"
  | whitespace => "WHITESPACE"
  | quote => "QUOTE"

def ofLabel? (label : String) : Option Group :=
  all.find? (·.label == label)

end Group

/-- The lexical category of a word. -/
inductive Category
  | function
  | conditional
  | openParen
  | closeParen
  | openCurly
  | closeCurly
  | openAngle
  | closeAngle
  | doubleQuote
  | singleQuote
  | backtick
  | typeSeparator
  | comma
  | plus
  | minus
  | star
  | slash
  | space
  | newline
  | unclassified
  deriving DecidableEq

namespace Category

/-- The categories in the order of their ordinals. -/
def all : List Category :=
  [function, conditional, openParen, closeParen, openCurly, closeCurly, openAngle, closeAngle,
    doubleQuote, singleQuote, backtick, typeSeparator, comma, plus, minus, star, slash,
    space, newline, unclassified]

/-- The number of a category in token files. -/
def ordinal : Category → Nat
  | function => 0
  | conditional => 1
  | openParen => 2
  | closeParen => 3
  | openCurly => 4
  | closeCurly => 5
  | openAngle => 6
  | closeAngle => 7
  | doubleQuote => 8
  | singleQuote => 9
  | backtick => 10
  | typeSeparator => 11
  | comma => 12
  | plus => 13
  | minus => 14
  | star => 15
  | slash => 16
  | space => 17
  | newline => 18
  | unclassified => 19

def ofOrdinal? (ordinal : Nat) : Option Category :=
  all[ordinal]?

theorem ordinal_lt (category : Category) : category.ordinal < 20 := by
  cases category <;> decide

@[simp]
theorem ofOrdinal?_ordinal (category : Category) :
    ofOrdinal? category.ordinal = some category := by
  cases category <;> rfl

/-- The name of a category in reports. -/
def name : Category → String
  | function => "FUNCTION"
  | conditional => "IF"
  | openParen => "OPEN_PAREN"
  | closeParen => "CLOSE_PAREN"
  | openCurly => "OPEN_CURLY"
  | closeCurly => "CLOSE_CURLY"
  | openAngle => "OPEN_ANGLE"
  | closeAngle => "CLOSE_ANGLE"
  | doubleQuote => "DOUBLE_QUOTE"
  | singleQuote => "SINGLE_QUOTE"
  | backtick => "BACKTICK"
  | typeSeparator => "TYPE_SEPARATOR"
  | comma => "COMMA"
  | plus => "PLUS"
  | minus => "MINUS"
  | star => "STAR"
  | slash => "SLASH"
  | space => "SPACE"
  | newline => "NEWLINE"
  | unclassified => "UNCLASSIFIED"

def ofName? (name : String) : Option Category :=
  all.find? (·.name == name)

@[simp]
theorem ofName?_name (category : Category) : ofName? category.name = some category := by
  cases category <;> decide

/-- The group of a category; a word that no group claims has none. -/
def group? : Category → Option Group
  | function | conditional => some .keyword
  | openParen | closeParen | openCurly | closeCurly | openAngle | closeAngle => some .bracket
  | doubleQuote | singleQuote | backtick => some .quote
  | typeSeparator | comma => some .separator
  | plus | minus | star | slash => some .operator
  | space | newline => some .whitespace
  | unclassified => none

end Category

def Group.members (group : Group) : List Category :=
  Category.all.filter (·.group? == some group)

end Lexeme
