import Lexeme.Encoding.Utf8
import Lexeme.Toml.Value

/-!
# Configuration files

A configuration file is a row of statements, one a line: an entry `key = value`, the header
of a table or the header of one more table of a list. Entries belong to the table of the
last header. A table has one header only, an array and an inline table are closed, and a
table that the keys of entries have made gets no header later.
-/

namespace Lexeme.Toml

/-- What has been built of a configuration file. -/
structure Document where
  table : Table
  /-- The path of the last header. -/
  header : List Text
  /-- The paths that must not get a header any more. -/
  declared : List (List Text)
  /-- The paths that count as declared from the next header on. -/
  pending : List (List Text)
  /-- The paths of arrays and inline tables. -/
  closed : List (List Text)

namespace Document

def empty : Document := ⟨[], [], [], [], []⟩

/-- Whether a path lies in an array or an inline table. -/
def isClosed (document : Document) (path : List Text) : Bool :=
  document.closed.any (startsWith · path)

/-- The document at a new header: what waited for it is declared. -/
def settle (document : Document) : Document :=
  { document with declared := document.pending ++ document.declared, pending := [] }

def beginTable (document : Document) (path : List Text) : Except Problem Document :=
  if document.declared.contains path ∨ document.isClosed path then .error .malformed
  else do
    let table ← document.table.update true .ok path
    pure { document with table, header := path, declared := path :: document.declared }

/-- Begins one more table of the list with a path. Headers below it start afresh. -/
def beginListItem (document : Document) (path : List Text) : Except Problem Document :=
  if document.isClosed path then .error .malformed
  else do
    let table ← document.table.update true (Table.append (path.getLastD [])) path.dropLast
    pure { document with
      table
      header := path
      declared := path :: document.declared.filter (!startsWith path ·)
      closed := document.closed.filter (!startsWith path ·) }

/-- The paths of the tables that lie between a header and an entry below it. -/
def between (header path : List Text) : List (List Text) :=
  (List.range (path.length - 1)).map fun index => header ++ path.take (index + 1)

def addEntry (document : Document) (path : List Text) (value : Datum) :
    Except Problem Document :=
  let inner := between document.header path
  let parent := document.header ++ path.dropLast
  if inner.any document.declared.contains ∨ document.isClosed parent then .error .malformed
  else do
    let table ← document.table.update true (Table.add (path.getLastD []) value) parent
    let closed := match value with
      | .list _ | .table _ => (document.header ++ path) :: document.closed
      | _ => document.closed
    pure { document with table, closed, pending := inner ++ document.pending }

def readEntry (document : Document) (text : Text) : Except Problem (Document × Text) := do
  let (path, rest) ← readKey text
  match rest with
  | '=' :: behind =>
    let (value, rest) ← readValue (skipBlanks behind)
    let document ← document.addEntry path value
    pure (document, rest)
  | _ => .error .malformed

def readHeader (document : Document) (text : Text) : Except Problem (Document × Text) :=
  match text with
  | '[' :: '[' :: rest => do
    let (path, rest) ← readKey (skipBlanks rest)
    let document ← document.settle.beginListItem path
    match rest with
    | ']' :: ']' :: behind => pure (document, behind)
    | _ => .error .malformed
  | '[' :: rest => do
    let (path, rest) ← readKey (skipBlanks rest)
    let document ← document.settle.beginTable path
    match rest with
    | ']' :: behind => pure (document, behind)
    | _ => .error .malformed
  | _ => .error .malformed

def readStatement (document : Document) (text : Text) : Except Problem (Document × Text) :=
  match text with
  | [] => .ok (document, [])
  | c :: _ =>
    if c = '\n' ∨ c = '#' then .ok (document, text)
    else if isBare c ∨ c = '"' ∨ c = '\'' then document.readEntry text
    else document.readHeader text

def readLines (document : Document) (text : Text) : Except Problem Document := do
  let (document, rest) ← document.readStatement (skipBlanks text)
  match ← skipComment (skipBlanks rest) with
  | [] => pure document
  | '\n' :: behind =>
    if behind.length < text.length then document.readLines behind else .error .malformed
  | _ => .error .malformed
termination_by text.length

end Document

/-- Line ends of two characters are read as line feeds. -/
def joinLineEnds : Text → Text
  | '\r' :: '\n' :: rest => '\n' :: joinLineEnds rest
  | c :: rest => c :: joinLineEnds rest
  | [] => []

def parse (text : Text) : Except Problem Table :=
  (Document.empty.readLines (joinLineEnds text)).map (·.table)

end Lexeme.Toml
