/-!
# Lists of entries

Entries are found by their keys. An entry is replaced by putting the new one in front of the
others, from which those with the key are taken out; no other key notices.
-/

namespace List

variable {κ ν : Type} [BEq κ] [LawfulBEq κ]

theorem lookup_filter_ne {key other : κ} (different : other ≠ key) (entries : List (κ × ν)) :
    (entries.filter (·.1 != key)).lookup other = entries.lookup other := by
  induction entries with
  | nil => rfl
  | cons entry rest inductionHypothesis =>
      rcases entry with ⟨first, value⟩
      by_cases replaced : first = key
      · have away : (other == first) = false := by simpa [replaced] using different
        rw [filter_cons_of_neg (by simpa using replaced), inductionHypothesis, lookup_cons, away]
      · rw [filter_cons_of_pos (by simpa using replaced), lookup_cons, lookup_cons,
          inductionHypothesis]

/-- Replacing an entry changes what is found for its own key only. -/
theorem lookup_cons_filter_ne (key other : κ) (value : ν) (entries : List (κ × ν)) :
    ((key, value) :: entries.filter (·.1 != key)).lookup other =
      if other == key then some value else entries.lookup other := by
  rw [lookup_cons]
  cases same : other == key with
  | true => rfl
  | false =>
      have different : other ≠ key := by simpa using same
      exact lookup_filter_ne different entries

end List
