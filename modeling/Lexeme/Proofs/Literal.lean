import Lexeme.Literal

/-!
# Words in the tables

A word has the category of the literal that it is, and any word that is no literal is
unclassified. The literals of a group have categories of that group, so no word is in two
tables. They are made of ASCII characters.
-/

namespace Lexeme

theorem Group.mem_cascade (group : Group) : group ∈ cascade := by
  cases group <;> decide

theorem literal_isAscii : ∀ group ∈ cascade, ∀ entry ∈ group.literals, ∀ c ∈ entry.1,
    c.toNat < 0x80 := by
  have all : cascade.all (fun group => group.literals.all fun entry =>
      entry.1.all fun c => decide (c.toNat < 0x80)) = true := by
    decide
  simpa only [List.all_eq_true, decide_eq_true_eq] using all

theorem categoryOf_literal : ∀ group ∈ cascade, ∀ entry ∈ group.literals,
    categoryOf entry.1 = entry.2 := by
  decide

theorem category?_literal : ∀ group ∈ cascade, ∀ entry ∈ group.literals,
    group.category? entry.1 = some entry.2 := by
  decide

theorem group?_literal : ∀ group ∈ cascade, ∀ entry ∈ group.literals,
    entry.2.group? = some group := by
  decide

theorem literal_ne_unclassified : ∀ group ∈ cascade, ∀ entry ∈ group.literals,
    entry.2 ≠ .unclassified := by
  decide

theorem exists_literal {word : Text} (classified : categoryOf word ≠ .unclassified) :
    ∃ group ∈ cascade, ∃ entry ∈ group.literals, entry.1 = word := by
  rw [categoryOf, categoryAmong] at classified
  cases asked : cascade.findSome? (·.category? word) with
  | none =>
      rw [asked] at classified
      contradiction
  | some category =>
      rcases List.exists_of_findSome?_eq_some asked with ⟨group, groupMem, known⟩
      rcases Option.map_eq_some_iff.mp known with ⟨entry, entryFound, _⟩
      refine ⟨group, groupMem, entry, List.mem_of_find?_eq_some entryFound, ?_⟩
      simpa using List.find?_some entryFound

theorem categoryOf_eq_unclassified_iff {word : Text} :
    categoryOf word = .unclassified ↔
      ∀ group ∈ cascade, ∀ entry ∈ group.literals, entry.1 ≠ word := by
  constructor
  · rintro unclassified group groupMem entry entryMem rfl
    rw [categoryOf_literal group groupMem entry entryMem] at unclassified
    exact literal_ne_unclassified group groupMem entry entryMem unclassified
  · intro noLiteral
    apply Classical.byContradiction
    intro classified
    rcases exists_literal classified with ⟨group, groupMem, entry, entryMem, same⟩
    exact noLiteral group groupMem entry entryMem same

end Lexeme
