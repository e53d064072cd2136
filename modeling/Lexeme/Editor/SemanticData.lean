import Lexeme.Editor.Span

/-!
# Semantic tokens

An editor colours a document by a list of numbers, five for each token that is not
whitespace: how many lines it is below the token before it, how many characters it is
to the right of that token or, on a new line, of the line's start, its length, the index
of its type in the legend, and a set of modifiers, which is always empty.
-/

namespace Lexeme.Editor

/-- The token types that an editor is told of. -/
inductive TokenType
  | keyword
  | operator
  | string
  | identifier
  deriving DecidableEq

namespace TokenType

def name : TokenType → String
  | keyword => "keyword"
  | operator => "operator"
  | string => "string"
  | identifier => "variable"

def legend : List TokenType := [keyword, operator, string, identifier]

/-- The type of the tokens of a group; a token without a group counts as an identifier. -/
def ofGroup? : Option Group → TokenType
  | some .keyword => keyword
  | some .bracket | some .operator | some .separator => operator
  | some .quote => string
  | some .whitespace | none => identifier

def index (type : TokenType) : Nat :=
  legend.idxOf type

end TokenType

namespace Span

/-- Whether a span is coloured: whitespace is not. -/
def isColoured (span : Span) : Bool :=
  span.token.category.group? != some .whitespace

/-- The numbers of a span, seen from the place of the span before it. -/
def relativeData (line character : Nat) (span : Span) : List Int :=
  let lines : Int := span.line - line
  let characters : Int := if lines = 0 then span.character - character else span.character
  [lines, characters, span.length,
    (TokenType.ofGroup? span.token.category.group?).index, 0]

/-- The numbers of spans, each seen from the one before it and the first one from a line and
a character. -/
def dataFrom (line character : Nat) : List Span → List Int
  | [] => []
  | span :: rest => span.relativeData line character ++ dataFrom span.line span.character rest

end Span

def semanticData (document : Text) : Except Failure (List Int) :=
  (spans document).map fun spans => Span.dataFrom 0 0 (spans.filter (·.isColoured))

end Lexeme.Editor
