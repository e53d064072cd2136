import Lexeme.Toml.Moment
import Lexeme.Toml.Number
import Lexeme.Toml.Table

/-!
# Values of configuration files

A value is a string, a truth value, an array, an inline table, a date, a time or a number.
Arrays may run over several lines and hold comments; an inline table stands on one line,
and once a value is in it no later key may reach into that value.

Reading a value needs no more text than there is, so each recursive call is made on a
shorter text.
-/

namespace Lexeme.Toml

/-- Whether a character may stand in a key without quotes. -/
def isBare (c : Char) : Bool :=
  c.isAlphanum || c == '-' || c == '_'

def skipBlanks (text : Text) : Text :=
  text.dropWhile isBlank

def readKeyPart (text : Text) : Except Problem (Text × Text) :=
  match text with
  | '"' :: rest => readBasic false .off rest
  | '\'' :: rest => readLiteral rest
  | c :: _ =>
    if isBare c then .ok (text.takeWhile isBare, text.dropWhile isBare) else .error .malformed
  | [] => .error .malformed

/-- Reads a key: parts with points between them. -/
def readKey (text : Text) : Except Problem (List Text × Text) := do
  let (part, rest) ← readKeyPart text
  match skipBlanks rest with
  | '.' :: behind =>
    let next := skipBlanks behind
    if next.length < text.length then
      let (parts, rest) ← readKey next
      pure (part :: parts, rest)
    else .error .malformed
  | rest => pure ([part], rest)
termination_by text.length

/-- The text behind a comment, if one starts here. A comment ends at the line feed. -/
def skipComment (text : Text) : Except Problem Text :=
  match text with
  | '#' :: rest =>
    let comment := rest.takeWhile (· != '\n')
    if comment.any isControl then .error .malformed else .ok (rest.drop comment.length)
  | _ => .ok text

def skipLines (text : Text) : Except Problem Text := do
  let rest ← skipComment (text.dropWhile fun c => isBlank c || c == '\n')
  if rest.length < text.length then skipLines rest else pure rest
termination_by text.length

def startsWith (start path : List Text) : Bool :=
  start.isPrefixOf path

mutual

def readValue (text : Text) : Except Problem (Datum × Text) :=
  match readString? text with
  | some reading => reading.map fun result => (.text result.1, result.2)
  | none =>
    match text with
    | 't' :: 'r' :: 'u' :: 'e' :: rest => .ok (.bool true, rest)
    | 'f' :: 'a' :: 'l' :: 's' :: 'e' :: rest => .ok (.bool false, rest)
    | '[' :: rest => do
      let start ← skipLines rest
      match start with
      | ']' :: behind => pure (.list [], behind)
      | _ =>
        if start.length ≤ rest.length then
          let (items, behind) ← readItems start
          pure (.list items, behind)
        else .error .malformed
    | '\x7b' :: rest =>
      match skipBlanks rest with
      | '\x7d' :: behind => .ok (.table [], behind)
      | start =>
        if start.length ≤ rest.length then do
          let (table, behind) ← readEntries [] [] start
          pure (.table table, behind)
        else .error .malformed
    | _ =>
      match readMoment? text with
      | some reading => reading
      | none =>
        match readTime? text <|> readRadix? text with
        | some result => .ok result
        | none =>
          match readDecimal? text with
          | some reading => reading
          | none =>
            match readSpecial? text with
            | some result => .ok result
            | none => .error .malformed
termination_by (text.length, 0)

/-- Reads the items of an array up to its closing bracket; there is at least one. -/
def readItems (text : Text) : Except Problem (List Datum × Text) := do
  let (item, rest) ← readValue text
  match ← skipLines rest with
  | ']' :: behind => pure ([item], behind)
  | ',' :: behind =>
    match ← skipLines behind with
    | ']' :: behind => pure ([item], behind)
    | next =>
      if next.length < text.length then
        let (items, behind) ← readItems next
        pure (item :: items, behind)
      else .error .malformed
  | _ => .error .malformed
termination_by (text.length, 1)

/-- Reads the entries of an inline table up to its closing brace; there is at least one. The
paths that hold arrays and tables are closed to later keys. -/
def readEntries (closed : List (List Text)) (table : Table) (text : Text) :
    Except Problem (Table × Text) := do
  let (path, rest) ← readKey text
  match rest with
  | '=' :: behind =>
    let start := skipBlanks behind
    if start.length < text.length then
      let (value, rest) ← readValue start
      if closed.any (startsWith · path) then .error .malformed
      else
        let table ← table.update false (Table.add (path.getLastD []) value) path.dropLast
        match skipBlanks rest with
        | '\x7d' :: behind => pure (table, behind)
        | ',' :: behind =>
          let next := skipBlanks behind
          let closed := match value with
            | .list _ | .table _ => path :: closed
            | _ => closed
          if next.length < text.length then readEntries closed table next
          else .error .malformed
        | _ => .error .malformed
    else .error .malformed
  | _ => .error .malformed
termination_by (text.length, 1)

end

end Lexeme.Toml
