import Lexeme.Datum
import Lexeme.Toml.Quoted

/-!
# Growing tables

A configuration file builds its table entry by entry. An entry is placed under a path of
keys, and tables that are missing on the way are made. Where a list of tables is on the
way, its last table is meant.
-/

namespace Lexeme.Toml

/-- The entries of a table in the order in which they were made. -/
abbrev Table := List (Text × Datum)

namespace Table

/-- Replaces the value under a key, or adds it at the end. -/
def set (key : Text) (value : Datum) : Table → Table
  | [] => [(key, value)]
  | (other, old) :: entries =>
    if other = key then (key, value) :: entries else (other, old) :: set key value entries

/-- Changes the table under a path of keys. `throughLists` tells whether the path may lead
through lists of tables; it never leads through any other value. -/
def update (throughLists : Bool) (change : Table → Except Problem Table) :
    List Text → Table → Except Problem Table
  | [], table => change table
  | key :: path, table =>
    match table.lookup key with
    | none => do
      let inner ← update throughLists change path []
      pure (table.set key (.table inner))
    | some (.table entries) => do
      let inner ← update throughLists change path entries
      pure (table.set key (.table inner))
    | some (.list items) =>
      match throughLists, items.getLast? with
      | true, some (.table entries) => do
        let inner ← update throughLists change path entries
        pure (table.set key (.list (items.dropLast ++ [.table inner])))
      | _, _ => .error .malformed
    | some _ => .error .malformed

def add (key : Text) (value : Datum) (table : Table) : Except Problem Table :=
  if (table.lookup key).isSome then .error .malformed else .ok (table.set key value)

/-- Adds an empty table to the list under a key, which is made if it is missing. -/
def append (key : Text) (table : Table) : Except Problem Table :=
  match table.lookup key with
  | none => .ok (table.set key (.list [.table []]))
  | some (.list items) => .ok (table.set key (.list (items ++ [.table []])))
  | some _ => .error .malformed

end Table

end Lexeme.Toml
