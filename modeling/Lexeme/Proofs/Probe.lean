import Lexeme.Proofs.Literal
import Lexeme.Proofs.Packed.Correspondence

/-!
# Asking single groups

A word is put to a single group or to all of them in turn. The table of a group has the words whose
categories form the group, so a word is known to the group of its category and to no other one, and
the order in which the groups are asked makes no difference. What is packed is the token that was
found: a miss comes before an offset that does not fit. A miss is told with its offset, so at an
offset without a written form no group may miss the word.
-/

namespace Lexeme

namespace Group

variable {group : Group} {offset : Int} {word : Text} {category : Category}

/-- A group knows the words whose category belongs to it. -/
theorem category?_eq_some_iff :
    group.category? word = some category ↔
      categoryOf word = category ∧ category.group? = some group := by
  constructor
  · intro known
    rcases Option.map_eq_some_iff.mp known with ⟨entry, found, rfl⟩
    have entryMem := List.mem_of_find?_eq_some found
    obtain rfl : entry.1 = word := by simpa using List.find?_some found
    exact ⟨categoryOf_literal group group.mem_cascade entry entryMem,
      group?_literal group group.mem_cascade entry entryMem⟩
  · rintro ⟨rfl, ofGroup⟩
    have classified : categoryOf word ≠ .unclassified := by
      intro unclassified
      simp [unclassified, Category.group?] at ofGroup
    rcases exists_literal classified with ⟨other, otherMem, entry, entryMem, rfl⟩
    rw [categoryOf_literal other otherMem entry entryMem] at ofGroup ⊢
    obtain rfl : other = group := by
      simpa [group?_literal other otherMem entry entryMem] using ofGroup
    exact category?_literal other otherMem entry entryMem

theorem category?_eq_none_iff :
    group.category? word = none ↔ (categoryOf word).group? ≠ some group := by
  simp [Option.eq_none_iff_forall_ne_some, category?_eq_some_iff]

theorem raised_notInGroup (word : Text) (group : Group) (offset : Int) :
    (Fault.notInGroup word group offset).raised =
      if Numeral.IsWritable offset then .fault (.notInGroup word group offset)
      else .numberTooLong := by
  simp [Fault.raised, Fault.IsTellable, Fault.shown]

end Group

/-- Groups that include all of those in the cascade give a word its category, in any order. -/
theorem categoryAmong_eq {order : List Group} (complete : cascade ⊆ order) (word : Text) :
    categoryAmong order word = categoryOf word := by
  rw [categoryAmong]
  cases asked : order.findSome? (·.category? word) with
  | some category =>
      rcases List.exists_of_findSome?_eq_some asked with ⟨group, _, known⟩
      exact (Group.category?_eq_some_iff.mp known).1.symm
  | none =>
      have missed := List.findSome?_eq_none_iff.mp asked
      apply Eq.symm
      apply categoryOf_eq_unclassified_iff.mpr
      rintro group groupMem entry entryMem rfl
      have known := category?_literal group groupMem entry entryMem
      rw [missed group (complete groupMem)] at known
      contradiction

namespace Token

variable {offset : Int} {word : Text}

theorem classifyAmong_eq (writable : Numeral.IsWritable offset) (word : Text)
    (groups : List Group) :
    classifyAmong offset word groups = .ok ⟨offset, categoryAmong groups word⟩ := by
  induction groups with
  | nil => rfl
  | cons group groups inductionHypothesis =>
      rw [classifyAmong, Group.probe, categoryAmong, List.findSome?_cons, Group.raised_notInGroup,
        if_pos writable]
      cases group.category? word with
      | none => exact inductionHypothesis
      | some category => rfl

/-- At an offset without a written form the first group has to know the word. -/
theorem classifyAmong_cons_of_not_isWritable (long : ¬Numeral.IsWritable offset) (group : Group)
    (groups : List Group) :
    classifyAmong offset word (group :: groups) =
      if (categoryOf word).group? = some group then .ok (ofWord offset word)
      else .error .numberTooLong := by
  rw [classifyAmong, Group.probe, Group.raised_notInGroup, if_neg long]
  cases known : group.category? word with
  | none => rw [if_neg (Group.category?_eq_none_iff.mp known)]
  | some category =>
      rcases Group.category?_eq_some_iff.mp known with ⟨rfl, ofGroup⟩
      rw [if_pos ofGroup]
      rfl

/-- In which order the groups are asked makes no difference, but that the first of them knows a
word without a miss of any other. -/
theorem classifyAmong_of_perm {order : List Group} (reordered : order.Perm cascade) (offset : Int)
    (word : Text) :
    classifyAmong offset word order =
      if Numeral.IsWritable offset ∨ (categoryOf word).group? = order.head? then
        .ok (ofWord offset word)
      else .error .numberTooLong := by
  by_cases writable : Numeral.IsWritable offset
  · rw [classifyAmong_eq writable, categoryAmong_eq reordered.symm.subset, if_pos (.inl writable)]
    rfl
  · cases order with
    | nil => cases reordered.length_eq
    | cons group groups =>
        rw [classifyAmong_cons_of_not_isWritable writable]
        simp [writable]

theorem classify_eq (offset : Int) (word : Text) :
    classify offset word =
      if Numeral.IsWritable offset ∨ (categoryOf word).group? = some .keyword then
        .ok (ofWord offset word)
      else .error .numberTooLong :=
  classifyAmong_of_perm (.refl cascade) offset word

theorem classify_of_isWritable (writable : Numeral.IsWritable offset) (word : Text) :
    classify offset word = .ok (ofWord offset word) := by
  rw [classify_eq, if_pos (.inl writable)]

theorem classify_eq_error_iff {failure : Failure} :
    classify offset word = .error failure ↔
      ¬Numeral.IsWritable offset ∧ (categoryOf word).group? ≠ some .keyword ∧
        failure = .numberTooLong := by
  rw [classify_eq]
  split
  · next told =>
      simp only [reduceCtorEq, false_iff]
      rintro ⟨long, missed, _⟩
      exact told.elim long missed
  · next untold =>
      rw [not_or] at untold
      simp [untold, eq_comm]

theorem eq_ofWord_of_classify {token : Token} (classified : classify offset word = .ok token) :
    token = ofWord offset word := by
  rw [classify_eq] at classified
  split at classified
  · exact (Except.ok.inj classified).symm
  · contradiction

end Token

end Lexeme
