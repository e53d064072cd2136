import Lexeme.Text.Basic

/-!
# Paths

A path is kept as its components: empty components and single points say nothing and are
dropped, double points stay. Two slashes at the start are a root of their own; any other
number of slashes counts as one.
-/

namespace Lexeme

/-- A path in its plainest form. -/
structure Path where
  /-- What stands before the first component: nothing, or one or two slashes. -/
  root : Text
  components : List Text
  deriving DecidableEq

namespace Path

def rootOf : Text → Text
  | '/' :: '/' :: '/' :: _ => ['/']
  | '/' :: '/' :: _ => ['/', '/']
  | '/' :: _ => ['/']
  | _ => []

def ofText (text : Text) : Path :=
  ⟨rootOf text, (Text.splitAt '/' text).filter fun part => part ≠ [] ∧ part ≠ ['.']⟩

def ofText? (text : Text) : Option Path :=
  if text.isEmpty then none else some (ofText text)

def text (path : Path) : Text :=
  if path.root.isEmpty ∧ path.components.isEmpty then ['.']
  else path.root ++ Text.joinWith ['/'] path.components

def parent (path : Path) : Path :=
  ⟨path.root, path.components.dropLast⟩

def child (path : Path) (component : Text) : Path :=
  ⟨path.root, path.components ++ [component]⟩

/-- The paths to all that lies on the way along a path, the path itself last. -/
def stages (path : Path) : List Path :=
  (List.range path.components.length).map fun index =>
    ⟨path.root, path.components.take (index + 1)⟩

/-- The directory that everything without a root is relative to. -/
def here : Path := ⟨[], []⟩

end Path

end Lexeme
