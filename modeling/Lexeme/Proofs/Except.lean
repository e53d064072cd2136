/-!
# Computations that may fail

A computation in steps succeeds if every step does. These facts take such a computation apart
at its first step.
-/

namespace Except

variable {ε α β : Type}

theorem bind_eq_ok_iff {first : Except ε α} {next : α → Except ε β} {result : β} :
    first >>= next = .ok result ↔ ∃ value, first = .ok value ∧ next value = .ok result := by
  cases first with
  | error failure => simp [bind, Except.bind]
  | ok value => simp [bind, Except.bind]

theorem bind_eq_error_iff {first : Except ε α} {next : α → Except ε β} {failure : ε} :
    first >>= next = .error failure ↔
      first = .error failure ∨ ∃ value, first = .ok value ∧ next value = .error failure := by
  cases first with
  | error earlier => simp [bind, Except.bind]
  | ok value => simp [bind, Except.bind]

theorem map_eq_ok_iff {first : Except ε α} {change : α → β} {result : β} :
    first.map change = .ok result ↔ ∃ value, first = .ok value ∧ change value = result := by
  cases first with
  | error failure => simp [Except.map]
  | ok value => simp [Except.map]

theorem map_eq_error_iff {first : Except ε α} {change : α → β} {failure : ε} :
    first.map change = .error failure ↔ first = .error failure := by
  cases first with
  | error earlier => simp [Except.map]
  | ok value => simp [Except.map]

theorem mapError_eq_ok_iff {ζ : Type} {first : Except ε α} {change : ε → ζ} {value : α} :
    first.mapError change = .ok value ↔ first = .ok value := by
  cases first with
  | error failure => exact ⟨nofun, nofun⟩
  | ok found =>
      change Except.ok found = Except.ok value ↔ Except.ok found = Except.ok value
      rw [Except.ok.injEq, Except.ok.injEq]

theorem mapError_eq_error_iff {ζ : Type} {first : Except ε α} {change : ε → ζ} {failure : ζ} :
    first.mapError change = .error failure ↔
      ∃ earlier, first = .error earlier ∧ change earlier = failure := by
  cases first with
  | error earlier =>
      change Except.error (change earlier) = Except.error failure ↔ _
      simp
  | ok value => exact ⟨nofun, nofun⟩

theorem mapM_cons_eq_ok_iff {step : α → Except ε β} {first : α} {rest : List α}
    {results : List β} :
    (first :: rest).mapM step = .ok results ↔
      ∃ result others, step first = .ok result ∧ rest.mapM step = .ok others ∧
        results = result :: others := by
  rw [List.mapM_cons, bind_eq_ok_iff]
  simp only [bind_eq_ok_iff, pure, Except.pure, Except.ok.injEq]
  constructor
  · rintro ⟨result, stepped, others, mapped, rfl⟩
    exact ⟨result, others, stepped, mapped, rfl⟩
  · rintro ⟨result, others, stepped, mapped, rfl⟩
    exact ⟨result, stepped, others, mapped, rfl⟩

/-- A list in which each member can only give what is known of it is mapped to just that. -/
theorem mapM_eq_ok_iff_of_known {step : α → Except ε β} {known : α → β}
    (only : ∀ member result, step member = .ok result → result = known member) {list : List α}
    {results : List β} :
    list.mapM step = .ok results ↔
      (∀ member ∈ list, step member = .ok (known member)) ∧ results = list.map known := by
  induction list generalizing results with
  | nil => simp [pure, Except.pure, eq_comm]
  | cons first rest inductionHypothesis =>
      rw [mapM_cons_eq_ok_iff, List.forall_mem_cons, List.map_cons]
      simp only [inductionHypothesis]
      constructor
      · rintro ⟨result, others, stepped, ⟨all, rfl⟩, rfl⟩
        obtain rfl := only first result stepped
        exact ⟨⟨stepped, all⟩, rfl⟩
      · rintro ⟨⟨stepped, all⟩, rfl⟩
        exact ⟨known first, rest.map known, stepped, ⟨all, rfl⟩, rfl⟩

theorem exists_mapM_eq_ok_iff {step : α → Except ε β} {list : List α} :
    (∃ results, list.mapM step = .ok results) ↔
      ∀ member ∈ list, ∃ result, step member = .ok result := by
  induction list with
  | nil => simp [pure, Except.pure]
  | cons first rest inductionHypothesis =>
      rw [List.forall_mem_cons, ← inductionHypothesis]
      simp only [mapM_cons_eq_ok_iff]
      constructor
      · rintro ⟨_, result, others, stepped, mapped, _⟩
        exact ⟨⟨result, stepped⟩, others, mapped⟩
      · rintro ⟨⟨result, stepped⟩, others, mapped⟩
        exact ⟨_, result, others, stepped, mapped, rfl⟩

/-- What is done to every member of a list fails as it does for the first member for which it
fails. -/
theorem mapM_eq_error_iff {step : α → Except ε β} {list : List α} {failure : ε} :
    list.mapM step = .error failure ↔
      ∃ before bad after, list = before ++ bad :: after ∧
        (∀ member ∈ before, ∃ result, step member = .ok result) ∧ step bad = .error failure := by
  induction list with
  | nil => simp [pure, Except.pure]
  | cons first rest inductionHypothesis =>
      rw [List.mapM_cons, bind_eq_error_iff]
      simp only [bind_eq_error_iff, inductionHypothesis, pure, Except.pure, reduceCtorEq, and_false,
        exists_false, or_false]
      constructor
      · rintro (failed | ⟨result, stepped, before, bad, after, rfl, good, failed⟩)
        · exact ⟨[], first, rest, rfl, by simp, failed⟩
        · exact ⟨first :: before, bad, after, rfl,
            List.forall_mem_cons.mpr ⟨⟨result, stepped⟩, good⟩, failed⟩
      · rintro ⟨before, bad, after, split, good, failed⟩
        cases before with
        | nil =>
            rw [List.nil_append, List.cons.injEq] at split
            rw [split.1]
            exact Or.inl failed
        | cons head before =>
            rw [List.cons_append, List.cons.injEq] at split
            rcases split with ⟨rfl, rfl⟩
            rcases List.forall_mem_cons.mp good with ⟨⟨result, stepped⟩, good⟩
            exact Or.inr ⟨result, stepped, before, bad, after, rfl, good, failed⟩

theorem getElem?_of_mapM {step : α → Except ε β} {list : List α} {results : List β}
    (mapped : list.mapM step = .ok results) {index : Nat} {member : α}
    (found : list[index]? = some member) :
    ∃ result, step member = .ok result ∧ results[index]? = some result := by
  induction list generalizing results index with
  | nil => contradiction
  | cons first rest inductionHypothesis =>
      rcases mapM_cons_eq_ok_iff.mp mapped with ⟨result, others, stepped, mappedRest, rfl⟩
      cases index with
      | zero =>
          cases found
          exact ⟨result, stepped, rfl⟩
      | succ index => exact inductionHypothesis mappedRest found

theorem length_of_mapM {step : α → Except ε β} {list : List α} {results : List β}
    (mapped : list.mapM step = .ok results) : results.length = list.length := by
  induction list generalizing results with
  | nil =>
      cases mapped
      rfl
  | cons first rest inductionHypothesis =>
      rcases mapM_cons_eq_ok_iff.mp mapped with ⟨result, others, _, mappedRest, rfl⟩
      rw [List.length_cons, inductionHypothesis mappedRest, List.length_cons]

/-- Results that are all there are those of a list of values. -/
theorem exists_map_ok_iff {results : List (Except ε α)} :
    (∃ values : List α, results = values.map .ok) ↔
      ∀ result ∈ results, ∃ value, result = .ok value := by
  induction results with
  | nil => exact ⟨fun _ => nofun, fun _ => ⟨[], rfl⟩⟩
  | cons first rest inductionHypothesis =>
      rw [List.forall_mem_cons, ← inductionHypothesis]
      constructor
      · rintro ⟨values, same⟩
        cases values with
        | nil => contradiction
        | cons value values =>
            rw [List.map_cons, List.cons.injEq] at same
            exact ⟨⟨value, same.1⟩, values, same.2⟩
      · rintro ⟨⟨value, rfl⟩, values, rfl⟩
        exact ⟨value :: values, rfl⟩

end Except
