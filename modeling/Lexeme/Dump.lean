import Lexeme.Locate

/-!
# Token dumps

A dump lists tokens one a line: offset, ordinal, category and record, and the text if a
source is at hand. It is written row by row, so the rows before a token that cannot be
shown are there.
-/

namespace Lexeme.Dump

structure Row where
  token : Token
  record : Bytes
  text : Option Text

/-- The columns of a row, each as wide as its longest entry, and the quoted text behind them. -/
def Row.line (row : Row) : Text :=
  let columns :=
    [' ', ' '] ++ Text.alignRight 10 (Numeral.integer row.token.offset) ++
    [' ', ' '] ++ Text.alignRight 3 (Numeral.natural row.token.category.ordinal) ++
    [' ', ' '] ++ Text.alignLeft 14 row.token.category.name.toList ++
    [' ', ' '] ++ Hex.spaced row.record
  let text := match row.text with
    | none => []
    | some text => [' ', ' '] ++ Quoted.encode text
  columns ++ text

def Row.render (row : Row) : Text :=
  row.line ++ ['\n']

def headerLine (count : Nat) : Text :=
  "Tokens (".toList ++ Numeral.natural count ++ [')']

def header (count : Nat) : Text :=
  headerLine count ++ ['\n']

/-- The row of a mark. Its offset is written first, then its ordinal is needed, and then its
record. -/
def Row.ofMark (mark : Mark) (text : Option Text) : Except Failure Row :=
  if Numeral.IsWritable mark.offset then
    match mark.token with
    | .error value => .error (.label (.unnumbered value))
    | .ok token => token.pack.map fun record => ⟨token, record, text⟩
  else .error .numberTooLong

section

variable {α : Type} [ToMark α]

/-- The rows of a sequence without a source, up to a member that has none. -/
def bareRows : List α → Partial Row
  | [] => .done
  | member :: rest =>
    match Row.ofMark (toMark member) none with
    | .error failure => .failed failure
    | .ok row => (bareRows rest).cons row

/-- The rows of a sequence with texts, up to a member whose text cannot be read or that has no
row. The text is read first. -/
def rowsWithTexts (encoding : Text) (source : Source) : List α → Partial Row × Source
  | [] => (.done, source)
  | member :: rest =>
    match source.readSpan (toMark member) (nextOffset rest.head?) encoding with
    | (.error failure, after) => (.failed failure, after)
    | (.ok text, after) =>
      match Row.ofMark (toMark member) (some text) with
      | .error failure => (.failed failure, after)
      | .ok row =>
        let (others, last) := rowsWithTexts encoding after rest
        (others.cons row, last)

def render (count : Nat) (rows : List Row) : Text :=
  header count ++ rows.flatMap Row.render

/-- A dump of a sequence without a source: what is written, and why it stopped early if it
did. -/
def bare (sequence : List α) : Text × Option Failure :=
  let rows := bareRows sequence
  (render sequence.length rows.items, rows.failure)

def withTexts (sequence : List α) (source : Source) (encoding : Text) :
    (Text × Option Failure) × Source :=
  let (rows, after) := rowsWithTexts encoding source sequence
  ((render sequence.length rows.items, rows.failure), after)

end

end Lexeme.Dump
