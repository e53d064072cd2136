import Lexeme.Directory
import Lexeme.Fault

/-!
# Actions

What a command does, step by step: it reads and writes files in a directory and writes to
the two output streams. A step that fails ends the action, but what was done before stays
done.
-/

namespace Lexeme

/-- The items of a sequence that is produced one by one, if none is missing. -/
def Partial.complete {α : Type} (sequence : Partial α) : Except Failure (List α) :=
  match sequence.failure with
  | some failure => .error failure
  | none => .ok sequence.items

namespace Command

inductive CommandFailure
  | noInput
  | failure (failure : Failure)
  | file (failure : OpenFailure)

/-- What has been done: what was written to the output stream and to the error stream, the
directory as it is now, and what came of it. -/
structure Work (α : Type) where
  out : Text
  err : Text
  directory : Directory
  result : Except CommandFailure α

def Action (α : Type) : Type := Directory → Work α

namespace Action

variable {α : Type}

/-- Finds something out and leaves everything as it is. -/
def consult (look : Directory → Except CommandFailure α) : Action α :=
  fun directory => ⟨[], [], directory, look directory⟩

instance : Monad Action where
  pure value := consult fun _ => .ok value
  bind action next := fun directory =>
    let first := action directory
    match first.result with
    | .error failure => ⟨first.out, first.err, first.directory, .error failure⟩
    | .ok value =>
      let second := next value first.directory
      ⟨first.out ++ second.out, first.err ++ second.err, second.directory, second.result⟩

def settle (result : Except Failure α) : Action α :=
  consult fun _ => result.mapError .failure

/-- Writes a file, as a whole or not at all. -/
def write (path : Path) (contents : Bytes) : Action Unit := fun directory =>
  match directory.write path contents with
  | .error failure => ⟨[], [], directory, .error (.file failure)⟩
  | .ok written => ⟨[], [], written, .ok ()⟩

/-- Writes to the output stream. -/
def print (text : Text) : Action Unit :=
  fun directory => ⟨text, [], directory, .ok ()⟩

/-- Writes to the error stream. -/
def note (text : Text) : Action Unit :=
  fun directory => ⟨[], text, directory, .ok ()⟩

/-- Writes a dump to the error stream, and fails behind it if the dump stopped early. -/
def dump (dump : Text × Option Failure) : Action Unit := do
  note dump.1
  settle (dump.2.elim (.ok ()) .error)

end Action

end Command

end Lexeme
