import Lexeme.Datum

/-!
# Positions

A position in a document is a line and a character, each counted from zero and below 2^31.
What the editor sends as a position is checked first, the line before the character.
-/

namespace Lexeme.Editor

/-- One of the two numbers of a position. -/
inductive Axis
  | line
  | character

def Axis.name : Axis → String
  | line => "line"
  | character => "character"

def maxCoordinate : Nat := 2147483647

structure PositionProblem where
  axis : Axis
  value : Datum

def PositionProblem.message (problem : PositionProblem) : String :=
  "Position." ++ problem.axis.name ++ " should be in range [0:" ++
    Numeral.integerString maxCoordinate ++ "], but was " ++ problem.value.plain ++ "."

structure Position where
  line : Nat
  character : Nat

/-- The number that a value is in a position. The truth values count as zero and one. -/
def coordinate? : Datum → Option Nat
  | .int n => if 0 ≤ n ∧ n ≤ maxCoordinate then some n.toNat else none
  | .bool value => some value.toNat
  | _ => none

def readCoordinate (axis : Axis) (value : Datum) : Except PositionProblem Nat :=
  match coordinate? value with
  | some n => .ok n
  | none => .error ⟨axis, value⟩

def Position.ofData (line character : Datum) : Except PositionProblem Position := do
  let line ← readCoordinate .line line
  let character ← readCoordinate .character character
  pure ⟨line, character⟩

end Lexeme.Editor
