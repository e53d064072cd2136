import Lexeme.Command.Action
import Lexeme.Proofs.Except

/-!
# What a failed action leaves behind

An action that only looks around or writes to the error stream is quiet: the output stream and the
files do not notice it. An action that is quiet up to its last step that can fail, and writes its
output or its file there, does all of its work or nothing. This is what quiet actions and single
steps are put together for here.
-/

namespace Lexeme.Command.Action

variable {α β : Type} {action : Action α} {next : α → Action β} {directory : Directory}

theorem bind_of_ok {value : α} (done : (action directory).result = .ok value) :
    (action >>= next) directory =
      let rest := next value (action directory).directory
      ⟨(action directory).out ++ rest.out, (action directory).err ++ rest.err, rest.directory,
        rest.result⟩ := by
  simp only [bind, done]

theorem bind_of_error {failure : CommandFailure}
    (failed : (action directory).result = .error failure) :
    (action >>= next) directory =
      ⟨(action directory).out, (action directory).err, (action directory).directory,
        .error failure⟩ := by
  simp only [bind, failed]

theorem result_bind_eq_ok_iff {value : β} :
    ((action >>= next) directory).result = .ok value ↔
      ∃ first, (action directory).result = .ok first ∧
        (next first (action directory).directory).result = .ok value := by
  cases done : (action directory).result with
  | error failure => simp [bind_of_error done]
  | ok first => simp [bind_of_ok done]

theorem result_bind_eq_error_iff {failure : CommandFailure} :
    ((action >>= next) directory).result = .error failure ↔
      (action directory).result = .error failure ∨
        ∃ first, (action directory).result = .ok first ∧
          (next first (action directory).directory).result = .error failure := by
  cases done : (action directory).result with
  | error earlier => simp [bind_of_error done]
  | ok first => simp [bind_of_ok done]

section

variable {look : Directory → Except CommandFailure α}

theorem consult_bind_of_ok {value : α} (found : look directory = .ok value) :
    (consult look >>= next) directory = next value directory := by
  apply bind_of_ok
  exact found

theorem consult_bind_of_error {failure : CommandFailure}
    (failed : look directory = .error failure) :
    (consult look >>= next) directory = ⟨[], [], directory, .error failure⟩ := by
  apply bind_of_error
  exact failed

theorem settle_bind_of_ok {result : Except Failure α} {value : α} (settled : result = .ok value) :
    (settle result >>= next) directory = next value directory := by
  apply consult_bind_of_ok
  rw [settled]
  rfl

end

theorem result_dump_of_complete {dumped : Text × Option Failure} (complete : dumped.2 = none)
    (directory : Directory) : (dump dumped directory).result = .ok () := by
  rw [dump, complete]
  rfl

theorem result_dump_of_stopped {dumped : Text × Option Failure} {reason : Failure}
    (stopped : dumped.2 = some reason) (directory : Directory) :
    (dump dumped directory).result = .error (.failure reason) := by
  rw [dump, stopped]
  rfl

/-- Whether neither the output stream nor the files notice an action. -/
def IsQuiet (action : Action α) : Prop :=
  ∀ directory, (action directory).out = [] ∧ (action directory).directory = directory

/-- Whether neither the output stream nor the files notice an action that fails. -/
def IsAllOrNothing (action : Action α) : Prop :=
  ∀ directory failure, (action directory).result = .error failure →
    (action directory).out = [] ∧ (action directory).directory = directory

/-- Whether an action leaves every file as it is, also if it succeeds. -/
def KeepsFiles (action : Action α) : Prop :=
  ∀ directory, (action directory).directory = directory

theorem IsQuiet.keepsFiles (quiet : IsQuiet action) : KeepsFiles action := by
  intro directory
  exact (quiet directory).2

theorem isQuiet_consult (look : Directory → Except CommandFailure α) : IsQuiet (consult look) := by
  intro directory
  exact ⟨rfl, rfl⟩

theorem isQuiet_pure (value : α) : IsQuiet (pure value) :=
  isQuiet_consult _

theorem isQuiet_settle (result : Except Failure α) : IsQuiet (settle result) :=
  isQuiet_consult _

theorem isQuiet_note (text : Text) : IsQuiet (note text) := by
  intro directory
  exact ⟨rfl, rfl⟩

theorem isAllOrNothing_print (text : Text) : IsAllOrNothing (print text) := by
  intro directory failure failed
  contradiction

theorem isAllOrNothing_write (path : Path) (contents : Bytes) :
    IsAllOrNothing (write path contents) := by
  intro directory failure failed
  simp only [write] at failed ⊢
  split at failed
  · simp
  · contradiction

theorem keepsFiles_print (text : Text) : KeepsFiles (print text) := by
  intro directory
  rfl

theorem KeepsFiles.bind (keeps : KeepsFiles action) (nextKeeps : ∀ value, KeepsFiles (next value)) :
    KeepsFiles (action >>= next) := by
  intro directory
  cases done : (action directory).result with
  | error failure =>
      rw [bind_of_error done]
      exact keeps directory
  | ok value =>
      rw [bind_of_ok done]
      exact (nextKeeps value _).trans (keeps directory)

theorem IsQuiet.bind (quiet : IsQuiet action) (nextQuiet : ∀ value, IsQuiet (next value)) :
    IsQuiet (action >>= next) := by
  intro directory
  rcases quiet directory with ⟨nothing, same⟩
  cases done : (action directory).result with
  | error failure =>
      rw [bind_of_error done]
      exact ⟨nothing, same⟩
  | ok value =>
      rw [bind_of_ok done]
      rcases nextQuiet value (action directory).directory with ⟨nothingNext, sameNext⟩
      exact ⟨by simp [nothing, nothingNext], sameNext.trans same⟩

theorem isQuiet_dump (dumped : Text × Option Failure) : IsQuiet (dump dumped) := by
  apply IsQuiet.bind (isQuiet_note dumped.1)
  intro _
  exact isQuiet_settle _

/-- Before an action that does all or nothing there may be quiet ones. -/
theorem IsQuiet.bind_isAllOrNothing (quiet : IsQuiet action)
    (rest : ∀ value, IsAllOrNothing (next value)) : IsAllOrNothing (action >>= next) := by
  intro directory failure failed
  rcases quiet directory with ⟨nothing, same⟩
  rcases result_bind_eq_error_iff.mp failed with failedFirst | ⟨value, done, failedNext⟩
  · rw [bind_of_error failedFirst]
    exact ⟨nothing, same⟩
  · rw [bind_of_ok done]
    rcases rest value _ failure failedNext with ⟨nothingNext, sameNext⟩
    exact ⟨by simp [nothing, nothingNext], sameNext.trans same⟩

/-- Behind a quiet action the next one does what it would have done without it, and only the error
stream tells. -/
theorem IsQuiet.bind_of_ok {value : α} (quiet : IsQuiet action)
    (done : (action directory).result = .ok value) :
    (action >>= next) directory =
      { next value directory with
        err := (action directory).err ++ (next value directory).err } := by
  rcases quiet directory with ⟨nothing, same⟩
  rw [Action.bind_of_ok done, same, nothing]
  rfl

/-- Behind a quiet action the next one starts from what was there before. -/
theorem IsQuiet.exists_of_bind_ok {value : β} (quiet : IsQuiet action)
    (done : ((action >>= next) directory).result = .ok value) :
    ∃ first, (next first directory).result = .ok value ∧
      ((action >>= next) directory).out = (next first directory).out ∧
      ((action >>= next) directory).directory = (next first directory).directory := by
  rcases result_bind_eq_ok_iff.mp done with ⟨first, doneFirst, doneNext⟩
  rw [(quiet directory).2] at doneNext
  rw [quiet.bind_of_ok doneFirst]
  exact ⟨first, doneNext, rfl, rfl⟩

/-- Behind such an action there may be steps that cannot fail. -/
theorem IsAllOrNothing.bind (first : IsAllOrNothing action)
    (sure : ∀ value directory, ∃ result, (next value directory).result = .ok result) :
    IsAllOrNothing (action >>= next) := by
  intro directory failure failed
  rcases result_bind_eq_error_iff.mp failed with failedFirst | ⟨value, _, failedNext⟩
  · rw [bind_of_error failedFirst]
    exact first directory failure failedFirst
  · rcases sure value (action directory).directory with ⟨result, done⟩
    rw [done] at failedNext
    contradiction

end Lexeme.Command.Action
