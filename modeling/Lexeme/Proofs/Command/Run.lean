import Lexeme.Proofs.Command.Perform

/-!
# How runs end

A run finds its settings and performs its command. It ends well only if both succeed, and then it
leaves behind what the command did.
-/

namespace Lexeme.Command

variable {directory after : Directory} {out err : Text} {outcome : Outcome}

namespace Options

variable {options : Options}

theorem run_of_perform
    (performed : options.perform directory = ⟨out, err, after, .ok ()⟩) :
    options.run directory = ⟨.exit 0, out, err, after⟩ := by
  rw [run, performed]

/-- A failed command leaves behind what it did until it failed. -/
theorem run_of_failed {failure : CommandFailure}
    (failed : (options.perform directory).result = .error failure) :
    options.run directory =
      ⟨(options.conclude failure).1, (options.perform directory).out,
        (options.perform directory).err ++ (options.conclude failure).2,
        (options.perform directory).directory⟩ := by
  rw [run]
  simp only [failed]

theorem conclude_ne_exit_zero (options : Options) (failure : CommandFailure) :
    (options.conclude failure).1 ≠ .exit 0 := by
  simp only [conclude]
  split <;> simp

/-- A run ends well only if the command has done what it is for. -/
theorem perform_of_run (ended : (options.run directory).ending = .exit 0) :
    ∃ err out after, options.perform directory = ⟨out, err, after, .ok ()⟩ := by
  cases performed : options.perform directory with
  | mk out err after result =>
      cases result with
      | ok done => exact ⟨err, out, after, rfl⟩
      | error failure =>
          rw [run_of_failed (by rw [performed])] at ended
          exact absurd ended (options.conclude_ne_exit_zero failure)

end Options

theorem run_eq_ok_iff {line : List Text} :
    run directory line = .ok outcome ↔
      ∃ arguments, Arguments.parse line = .ok arguments ∧ outcome = arguments.run directory := by
  simp only [run]
  simp only [Except.bind_eq_ok_iff, pure, Except.pure, Except.ok.injEq]
  constructor
  · rintro ⟨arguments, parsed, rfl⟩
    exact ⟨arguments, parsed, rfl⟩
  · rintro ⟨arguments, parsed, rfl⟩
    exact ⟨arguments, parsed, rfl⟩

/-- A command that ends well has found its settings and has done what it is for. -/
theorem resolve_of_run {arguments : Arguments}
    (ended : (arguments.run directory).ending = .exit 0) :
    ∃ options err out after, Options.resolve directory arguments = .ok options ∧
      options.perform directory = ⟨out, err, after, .ok ()⟩ ∧
      arguments.run directory = ⟨.exit 0, out, err, after⟩ := by
  cases resolved : Options.resolve directory arguments with
  | error problem =>
      simp only [Arguments.run, resolved] at ended
      split at ended <;> simp at ended
  | ok options =>
      simp only [Arguments.run, resolved] at ended ⊢
      rcases Options.perform_of_run ended with ⟨err, out, after, performed⟩
      exact ⟨options, err, out, after, rfl, performed, Options.run_of_perform performed⟩

theorem run_of_resolve {line : List Text} {arguments : Arguments} {options : Options}
    (parsed : Arguments.parse line = .ok arguments)
    (resolved : Options.resolve directory arguments = .ok options)
    (performed : options.perform directory = ⟨out, err, after, .ok ()⟩) :
    run directory line = .ok ⟨.exit 0, out, err, after⟩ := by
  refine run_eq_ok_iff.mpr ⟨arguments, parsed, ?_⟩
  rw [Arguments.run, resolved]
  exact (Options.run_of_perform performed).symm

end Lexeme.Command
