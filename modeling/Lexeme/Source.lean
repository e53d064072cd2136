import Lexeme.Fault

/-!
# Source handles

A source is read through a handle, which has a position. The position may lie beyond
the end, where there is nothing to read; a refused request leaves it where it is.
-/

namespace Lexeme

/-- The bytes of a source and a position in them. -/
structure Source where
  contents : Bytes
  position : Nat

namespace Source

def ofBytes (contents : Bytes) : Source :=
  ⟨contents, 0⟩

/-- The largest offset and length that a handle can work with. -/
def maxIndex : Int := 0x7fffffffffffffff

def seekRefusal? (offset : Int) : Option Refusal :=
  if offset < -maxIndex - 1 ∨ maxIndex < offset then some .offsetTooLarge
  else if offset < 0 then some (.negativeOffset offset)
  else none

def seek (source : Source) (offset : Int) : Except Refusal Source :=
  match seekRefusal? offset with
  | some refusal => .error refusal
  | none => .ok { source with position := offset.toNat }

/-- What a read of `length` bytes gives; without a length, or with a negative one, the
read goes to the end. -/
def available (source : Source) (length : Option Int) : Bytes :=
  let rest := source.contents.drop source.position
  match length with
  | none => rest
  | some length => if length < 0 then rest else rest.take length.toNat

/-- Reads and moves the position behind what was read. -/
def read (source : Source) (length : Option Int) : Except Refusal (Bytes × Source) :=
  if length.any fun n => decide (n < -maxIndex - 1 ∨ maxIndex < n) then .error .lengthTooLarge
  else
    let data := source.available length
    .ok (data, { source with position := source.position + data.length })

/-- Runs `body` with the position moved to an offset, and moves it back whatever happens
in between. -/
def readingAt {ε α : Type} (source : Source) (offset : Int) (refuse : Refusal → ε)
    (body : Source → Except ε α × Source) : Except ε α × Source :=
  match source.seek offset with
  | .error refusal => (.error (refuse refusal), source)
  | .ok inner =>
    let (result, after) := body inner
    (result, { after with position := source.position })

/-- Whatever is done at another offset, the position is the same afterwards. -/
@[simp]
theorem position_readingAt {ε α : Type} (source : Source) (offset : Int) (refuse : Refusal → ε)
    (body : Source → Except ε α × Source) :
    (source.readingAt offset refuse body).2.position = source.position := by
  unfold readingAt
  split <;> rfl

end Source

end Lexeme
