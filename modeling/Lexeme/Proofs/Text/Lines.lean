import Lexeme.Text.Basic

/-!
# Lines and columns

A text is cut at its separators, and lines that each end in a separator are got back from all of
them in a row. In a line a column is told by where it starts and how wide it is; what has been
aligned there is got back without the blanks.
-/

namespace Lexeme.Text

section Parts

variable {separator : Char}

theorem splitAt_cons_separator (separator : Char) (rest : Text) :
    splitAt separator (separator :: rest) = [] :: splitAt separator rest := by
  rw [splitAt]
  cases parted : splitAt separator rest with
  | nil => exact absurd parted (splitAt_ne_nil separator rest)
  | cons part parts => exact if_pos rfl

theorem splitAt_cons_of_ne {c : Char} {rest part : Text} {parts : List Text}
    (differs : c ≠ separator) (parted : splitAt separator rest = part :: parts) :
    splitAt separator (c :: rest) = (c :: part) :: parts := by
  rw [splitAt, parted]
  exact if_neg differs

/-- The first part is what stands before the first separator. -/
theorem headD_splitAt (separator : Char) (text : Text) :
    (splitAt separator text).headD [] = text.takeWhile (· ≠ separator) := by
  induction text with
  | nil => rfl
  | cons c rest inductionHypothesis =>
      by_cases same : c = separator
      · rw [same, splitAt_cons_separator]
        simp
      · cases parted : splitAt separator rest with
        | nil => exact absurd parted (splitAt_ne_nil separator rest)
        | cons part parts =>
            rw [parted, List.headD_cons] at inductionHypothesis
            rw [splitAt_cons_of_ne same parted, inductionHypothesis]
            simp [same]

/-- A text with a single part is this part. -/
theorem splitAt_eq_singleton {text : Text} (single : (splitAt separator text).length ≤ 1) :
    splitAt separator text = [text] := by
  have joined := joinWith_splitAt separator text
  cases parted : splitAt separator text with
  | nil => exact absurd parted (splitAt_ne_nil separator text)
  | cons part parts =>
      rw [parted, List.length_cons] at single
      obtain rfl : parts = [] := List.length_eq_zero_iff.mp (by omega)
      rw [parted, joinWith] at joined
      rw [joined]

/-- The first part ends before the first separator. -/
theorem splitAt_append_cons {part : Text} (apart : separator ∉ part) (rest : Text) :
    splitAt separator (part ++ separator :: rest) = part :: splitAt separator rest := by
  induction part with
  | nil => exact splitAt_cons_separator separator rest
  | cons c part inductionHypothesis =>
      rw [List.mem_cons, not_or] at apart
      exact splitAt_cons_of_ne (Ne.symm apart.1) (inductionHypothesis apart.2)

theorem splitAt_flatMap_concat {lines : List Text} (apart : ∀ line ∈ lines, separator ∉ line) :
    splitAt separator (lines.flatMap (· ++ [separator])) = lines ++ [[]] := by
  induction lines with
  | nil => rfl
  | cons line lines inductionHypothesis =>
      rw [List.forall_mem_cons] at apart
      rw [List.flatMap_cons, List.append_assoc, List.singleton_append,
        splitAt_append_cons apart.1, inductionHypothesis apart.2, List.cons_append]

theorem filter_ne_of_notMem {text : Text} (apart : separator ∉ text) :
    text.filter (· ≠ separator) = text := by
  apply List.filter_eq_self.mpr
  intro c cMem
  apply decide_eq_true
  rintro rfl
  exact apart cMem

theorem mem_of_mem_joinWith {separator : Text} {texts : List Text} {c : Char}
    (cMem : c ∈ joinWith separator texts) : c ∈ separator ∨ ∃ text ∈ texts, c ∈ text := by
  induction texts with
  | nil => contradiction
  | cons text texts inductionHypothesis =>
      by_cases last : texts = []
      · subst last
        exact Or.inr ⟨text, List.mem_cons_self, cMem⟩
      · rw [joinWith_cons _ _ last, List.mem_append, List.mem_append] at cMem
        rcases cMem with (inFirst | inSeparator) | later
        · exact Or.inr ⟨text, List.mem_cons_self, inFirst⟩
        · exact Or.inl inSeparator
        · rcases inductionHypothesis later with inSeparator | ⟨other, otherMem, inOther⟩
          · exact Or.inl inSeparator
          · exact Or.inr ⟨other, List.mem_cons_of_mem _ otherMem, inOther⟩

/-- Taking the separators out of texts that hold none leaves the texts. -/
theorem filter_joinWith {texts : List Text}
    (apart : ∀ text ∈ texts, separator ∉ text) :
    (joinWith [separator] texts).filter (· ≠ separator) = texts.flatten := by
  induction texts with
  | nil => rfl
  | cons text texts inductionHypothesis =>
      rw [List.forall_mem_cons] at apart
      by_cases last : texts = []
      · subst last
        rw [joinWith, filter_ne_of_notMem apart.1, List.flatten_singleton]
      · rw [joinWith_cons _ _ last, List.filter_append, List.filter_append,
          filter_ne_of_notMem apart.1, inductionHypothesis apart.2]
        simp

end Parts

section Columns

variable {width : Nat} {text : Text}

/-- What stands in a column of a line. -/
def column (start width : Nat) (line : Text) : Text :=
  (line.drop start).take width

theorem drop_add_append {before rest : Text} (wide : before.length = width) (start : Nat) :
    (before ++ rest).drop (start + width) = rest.drop start := by
  rw [Nat.add_comm, ← wide, List.drop_length_add_append]

/-- What stands before a column only moves it. -/
theorem column_add_append {before rest : Text} {start others : Nat}
    (wide : before.length = others) :
    column (start + others) width (before ++ rest) = column start width rest := by
  rw [column, drop_add_append wide, column]

theorem column_zero_append {entry : Text} (wide : entry.length = width) (behind : Text) :
    column 0 width (entry ++ behind) = entry :=
  List.take_left' wide

theorem length_alignRight (fits : text.length ≤ width) :
    (alignRight width text).length = width := by
  rw [alignRight, List.length_append, List.length_replicate]
  omega

theorem length_alignLeft (fits : text.length ≤ width) :
    (alignLeft width text).length = width := by
  rw [alignLeft, List.length_append, List.length_replicate]
  omega

theorem mem_alignRight {c : Char} (cMem : c ∈ alignRight width text) : c = ' ' ∨ c ∈ text :=
  (List.mem_append.mp cMem).imp_left List.eq_of_mem_replicate

theorem mem_alignLeft {c : Char} (cMem : c ∈ alignLeft width text) : c = ' ' ∨ c ∈ text :=
  (List.mem_append.mp cMem).symm.imp_left List.eq_of_mem_replicate

theorem filter_alignRight (width : Nat) (unbroken : ' ' ∉ text) :
    (alignRight width text).filter (· ≠ ' ') = text := by
  rw [alignRight, List.filter_append, filter_ne_of_notMem unbroken]
  simp

theorem filter_alignLeft (width : Nat) (unbroken : ' ' ∉ text) :
    (alignLeft width text).filter (· ≠ ' ') = text := by
  rw [alignLeft, List.filter_append, filter_ne_of_notMem unbroken]
  simp

end Columns

end Lexeme.Text
