import Lexeme.Encoding.Utf8
import Lexeme.Path
import Lexeme.Text.Quoted

/-!
# Directories

The files that the program can see, relative to the directory it runs in. A path is walked
component by component: every component but the last must be a directory, and double points
lead one level up. Of the places outside only those are known that were written.
-/

namespace Lexeme

inductive FileProblem
  | missing
  | notDirectory
  | isDirectory
  | nameTooLong
  deriving DecidableEq

namespace FileProblem

def number : FileProblem → Nat
  | missing => 2
  | notDirectory => 20
  | isDirectory => 21
  | nameTooLong => 36

def words : FileProblem → String
  | missing => "No such file or directory"
  | notDirectory => "Not a directory"
  | isDirectory => "Is a directory"
  | nameTooLong => "File name too long"

def message (problem : FileProblem) (path : Path) : String :=
  "[Errno " ++ toString problem.number ++ "] " ++ problem.words ++ ": " ++
    String.ofList (Quoted.encode path.text)

end FileProblem

/-- A place in the file system: below the directory that is `levels` above the current
one, or below the root if there are no levels. -/
structure Location where
  levels : Option Nat
  components : List Text
  deriving DecidableEq

inductive Entry
  | file (contents : Bytes)
  | folder

structure Directory where
  entries : List (Location × Entry)

inductive OpenFailure
  | holdsNul
  | problem (problem : FileProblem) (path : Path)

def OpenFailure.nulMessage : String := "embedded null byte"

namespace Location

def here : Location := ⟨some 0, []⟩

def root : Location := ⟨none, []⟩

/-- One level up; above the root is the root. -/
def parent (location : Location) : Location :=
  if location.components.isEmpty then ⟨location.levels.map (· + 1), []⟩
  else ⟨location.levels, location.components.dropLast⟩

def child (location : Location) (component : Text) : Location :=
  ⟨location.levels, location.components ++ [component]⟩

def start (path : Path) : Location :=
  if path.root.isEmpty then here else root

/-- Where a path leads if every directory on the way is there. -/
def ofPath (path : Path) : Location :=
  path.components.foldl
    (fun location component =>
      if component = ['.', '.'] then location.parent else location.child component)
    (start path)

end Location

namespace Directory

/-- The longest component and the longest path, in bytes. -/
def maxComponent : Nat := 255

/-- The number of bytes that no path may reach. -/
def pathLimit : Nat := 4096

def entry? (directory : Directory) (location : Location) : Option Entry :=
  if location.components.isEmpty then some .folder else directory.entries.lookup location

/-- Walks along components from a directory on. The end of the walk need not exist, but it
lies in a directory that does. -/
def walk (directory : Directory) (location : Location) :
    List Text → Except FileProblem Location
  | [] => .ok location
  | component :: rest =>
    match directory.entry? location with
    | none => .error .missing
    | some (.file _) => .error .notDirectory
    | some .folder =>
      if component = ['.', '.'] then directory.walk location.parent rest
      else if maxComponent < (Utf8.encode component).length then .error .nameTooLong
      else directory.walk (location.child component) rest

def locate (directory : Directory) (path : Path) : Except FileProblem Location :=
  if pathLimit ≤ (Utf8.encode path.text).length then .error .nameTooLong
  else directory.walk (.start path) path.components

/-- The place of the file that a path leads to, and its contents unless it is yet to be
made. -/
def openFile (directory : Directory) (path : Path) :
    Except OpenFailure (Location × Option Bytes) :=
  if path.text.contains '\x00' then .error .holdsNul
  else
    match directory.locate path with
    | .error problem => .error (.problem problem path)
    | .ok location =>
      match directory.entry? location with
      | some .folder => .error (.problem .isDirectory path)
      | some (.file contents) => .ok (location, some contents)
      | none => .ok (location, none)

def read (directory : Directory) (path : Path) : Except OpenFailure Bytes :=
  match directory.openFile path with
  | .error failure => .error failure
  | .ok (_, some contents) => .ok contents
  | .ok (_, none) => .error (.problem .missing path)

def put (directory : Directory) (location : Location) (entry : Entry) : Directory :=
  ⟨(location, entry) :: directory.entries.filter (·.1 ≠ location)⟩

def write (directory : Directory) (path : Path) (contents : Bytes) :
    Except OpenFailure Directory :=
  match directory.openFile path with
  | .error failure => .error failure
  | .ok (location, _) => .ok (directory.put location (.file contents))

/-- Whether a path leads to a file. A path that is too long cannot be judged. -/
def isFile (directory : Directory) (path : Path) : Except FileProblem Bool :=
  if path.text.contains '\x00' then .ok false
  else
    match directory.locate path with
    | .error .nameTooLong => .error .nameTooLong
    | .error _ => .ok false
    | .ok location =>
      match directory.entry? location with
      | some (.file _) => .ok true
      | _ => .ok false

/-- Makes the directories that lead to a place in the current one. -/
def makeFolders (directory : Directory) (components : List Text) : Directory :=
  (List.range components.length).foldl
    (fun made index => made.put ⟨some 0, components.take (index + 1)⟩ .folder) directory

/-- Adds a file, or a directory if there are no contents, together with the directories that
lead to it. -/
def add (directory : Directory) (path : Path) (contents : Option Bytes) : Directory :=
  match contents with
  | none => directory.makeFolders path.components
  | some contents =>
    (directory.makeFolders path.components.dropLast).put ⟨some 0, path.components⟩ (.file contents)

/-- Nothing is there but the current directory. -/
def empty : Directory := ⟨[]⟩

/-- The files in the current directory whose contents are not what they were before. -/
def changedSince (directory before : Directory) : List (Path × Bytes) :=
  directory.entries.filterMap fun
    | (⟨some 0, components⟩, .file contents) =>
      match before.entry? ⟨some 0, components⟩ with
      | some (.file old) => if old = contents then none else some (⟨[], components⟩, contents)
      | _ => some (⟨[], components⟩, contents)
    | _ => none

end Directory

end Lexeme
