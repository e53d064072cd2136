import Lexeme.Encoding.Utf16
import Lexeme.Fault

/-!
# Reports

A report lists tokens and, if asked for, their texts. A table has one line per token with
columns set apart by tabs and the text quoted. A JSON report is an array of objects in
ASCII, indented by two blanks per level. A report breaks off at an offset that has no
written form.
-/

namespace Lexeme.Report

inductive Format
  | table
  | json
  deriving DecidableEq

namespace Format

def all : List Format := [table, json]

def name : Format → String
  | table => "table"
  | json => "json"

def ofName? (name : Text) : Option Format :=
  all.find? (·.name.toList == name)

end Format

/-- A token with its text, if that is known. -/
structure Row where
  token : Token
  text : Option Text

/-- The row of a mark, whose category's name is needed. -/
def Row.ofMark (mark : Mark) (text : Option Text) : Except Failure Row :=
  match mark.token with
  | .error value => .error (.label (.nameless value))
  | .ok token => .ok ⟨token, text⟩

/-- Whether the offset of a row can be written. -/
def Row.IsWritable (row : Row) : Prop :=
  Numeral.IsWritable row.token.offset

instance (row : Row) : Decidable row.IsWritable :=
  inferInstanceAs (Decidable (Numeral.IsWritable _))

/-- A code unit in a JSON string as an escape. -/
def unitEscape (unit : Nat) : Text :=
  '\\' :: 'u' :: Numeral.hexadecimal 4 unit

/-- A character as it stands in a JSON string of ASCII characters only. -/
def jsonCharacter (c : Char) : Text :=
  if c = '"' ∨ c = '\\' then ['\\', c]
  else if c = '\n' then ['\\', 'n']
  else if c = '\r' then ['\\', 'r']
  else if c = '\t' then ['\\', 't']
  else if c = '\x08' then ['\\', 'b']
  else if c = '\x0c' then ['\\', 'f']
  else if 0x20 ≤ c.toNat ∧ c.toNat < 0x7f then [c]
  else (Utf16.units c).flatMap unitEscape

def jsonString (text : Text) : Text :=
  '"' :: text.flatMap jsonCharacter ++ ['"']

def jsonMembers (showText : Bool) (row : Row) : List (String × Text) :=
  let text := match showText, row.text with
    | true, some text => [("text", jsonString text)]
    | _, _ => []
  [("offset", Numeral.integer row.token.offset),
    ("category", jsonString row.token.category.name.toList),
    ("ordinal", Numeral.natural row.token.category.ordinal)] ++ text

/-- A member of an object on a line of its own, without the end of the line. -/
def jsonMember (member : String × Text) : Text :=
  [' ', ' ', ' ', ' '] ++ jsonString member.1.toList ++ [':', ' '] ++ member.2

/-- The object for a row, on lines of its own, without the end of the last line. -/
def jsonObject (showText : Bool) (row : Row) : Text :=
  [' ', ' ', '\x7b', '\n'] ++
    Text.joinWith [',', '\n'] ((jsonMembers showText row).map jsonMember) ++
    ['\n', ' ', ' ', '\x7d']

def json (showText : Bool) (rows : List Row) : Text :=
  if rows.isEmpty then ['[', ']', '\n']
  else
    ['[', '\n'] ++ Text.joinWith [',', '\n'] (rows.map (jsonObject showText)) ++
      ['\n', ']', '\n']

def tableLine (showText : Bool) (row : Row) : Text :=
  let text := match showText, row.text with
    | true, some text => '\t' :: Quoted.encode text
    | _, _ => []
  Numeral.integer row.token.offset ++ '\t' :: row.token.category.name.toList ++ text ++ ['\n']

def table (showText : Bool) (rows : List Row) : Text :=
  rows.flatMap (tableLine showText)

/-- A report of rows that can all be written. -/
def render (format : Format) (showText : Bool) (rows : List Row) : Text :=
  match format with
  | .table => table showText rows
  | .json => json showText rows

/-- The rows of a table, up to one that has no line: its offset is written first, and then its
category's name is needed. -/
def tableRows : List (Mark × Option Text) → Partial Row
  | [] => .done
  | (mark, text) :: entries =>
    if Numeral.IsWritable mark.offset then
      match Row.ofMark mark text with
      | .error failure => .failed failure
      | .ok row => (tableRows entries).cons row
    else .failed .numberTooLong

/-- What stands of an object whose offset cannot be written. -/
def jsonStart : Text :=
  [' ', ' ', '\x7b', '\n'] ++ jsonMember ("offset", [])

/-- A JSON report up to the first row whose offset cannot be written. -/
def jsonUpTo (showText : Bool) (rows : List Row) : Text × Option Failure :=
  let shown := rows.takeWhile (·.IsWritable)
  if shown.length = rows.length then (json showText rows, none)
  else
    (['[', '\n'] ++ shown.flatMap (jsonObject showText · ++ [',', '\n']) ++ jsonStart,
      some .numberTooLong)

/-- Writes a report: what is written, and why it broke off if it did. A table is written line by
line; for a JSON report all names of categories are needed before anything is written. -/
def write (format : Format) (showText : Bool) (entries : List (Mark × Option Text)) :
    Text × Option Failure :=
  match format with
  | .table =>
    let rows := tableRows entries
    (table showText rows.items, rows.failure)
  | .json =>
    match entries.mapM fun entry => Row.ofMark entry.1 entry.2 with
    | .error failure => ([], some failure)
    | .ok rows => jsonUpTo showText rows

end Lexeme.Report
