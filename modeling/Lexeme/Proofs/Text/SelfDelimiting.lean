import Lexeme.Proofs.Text.Lines
import Lexeme.Proofs.Text.Numeral

/-!
# Text that shows where it ends

Things that are written one behind the other are told apart again if each of them shows where it
ends. It may do so by a character that does not occur in it, or because a reader that goes through
it from the left comes to its end. A numeral in base ten ends before the first character that is
no digit.
-/

namespace Lexeme

namespace Text

/-- Whatever stands behind a thing that is written so, both can be told from the whole. -/
def SelfDelimiting {α : Type} (write : α → Text) : Prop :=
  ∀ ⦃first second : α⦄ ⦃behind other : Text⦄,
    write first ++ behind = write second ++ other → first = second ∧ behind = other

section

variable {α : Type} {write : α → Text}

theorem selfDelimiting_of_read (read? : Text → Option (α × Text))
    (readsBack : ∀ item rest, read? (write item ++ rest) = some (item, rest)) :
    SelfDelimiting write := by
  intro first second behind other same
  have readFirst := readsBack first behind
  rw [same, readsBack, Option.some.injEq, Prod.mk.injEq] at readFirst
  exact ⟨readFirst.1.symm, readFirst.2.symm⟩

namespace SelfDelimiting

theorem injective (delimiting : SelfDelimiting write) : Function.Injective write := by
  intro first second same
  have alone : write first ++ [] = write second ++ [] := by rw [same]
  exact (delimiting alone).1

theorem comp {β : Type} (delimiting : SelfDelimiting write) {part : β → α}
    (injective : Function.Injective part) : SelfDelimiting fun item => write (part item) := by
  intro first second behind other same
  rcases delimiting same with ⟨samePart, sameBehind⟩
  exact ⟨injective samePart, sameBehind⟩

theorem labelled (delimiting : SelfDelimiting write) (label : Text) :
    SelfDelimiting fun item => label ++ write item := by
  intro first second behind other same
  rw [List.append_assoc, List.append_assoc] at same
  exact delimiting (List.append_cancel_left same)

theorem pair {β : Type} {writeOther : β → Text} (delimiting : SelfDelimiting write)
    (otherDelimiting : SelfDelimiting writeOther) :
    SelfDelimiting fun both : α × β => write both.1 ++ writeOther both.2 := by
  rintro ⟨first, firstOther⟩ ⟨second, secondOther⟩ behind other same
  rw [List.append_assoc, List.append_assoc] at same
  rcases delimiting same with ⟨rfl, sameOther⟩
  rcases otherDelimiting sameOther with ⟨rfl, sameBehind⟩
  exact ⟨rfl, sameBehind⟩

/-- More may follow that is known from what has been read. -/
theorem continued (delimiting : SelfDelimiting write) (more : α → Text) :
    SelfDelimiting fun item => write item ++ more item := by
  intro first second behind other same
  rw [List.append_assoc, List.append_assoc] at same
  rcases delimiting same with ⟨rfl, sameBehind⟩
  exact ⟨rfl, List.append_cancel_left sameBehind⟩

/-- Whether a thing is there can be seen from the first character. -/
theorem optional (delimiting : SelfDelimiting write) {opening closing : Char}
    (apart : opening ≠ closing) (label rest : Text) :
    SelfDelimiting fun item : Option α =>
      (item.elim [] fun item => opening :: (label ++ write item)) ++ closing :: rest := by
  intro first second behind other same
  cases first with
  | none =>
      cases second with
      | none => exact ⟨rfl, List.append_cancel_left same⟩
      | some second => exact absurd (List.head_eq_of_cons_eq same).symm apart
  | some first =>
      cases second with
      | none => exact absurd (List.head_eq_of_cons_eq same) apart
      | some second =>
          have delimited := (delimiting.labelled label).continued fun _ => closing :: rest
          have sameTail : (label ++ write first) ++ closing :: rest ++ behind =
              (label ++ write second) ++ closing :: rest ++ other := List.tail_eq_of_cons_eq same
          rcases delimited sameTail with ⟨rfl, sameBehind⟩
          exact ⟨rfl, sameBehind⟩

/-- Things in a row are told apart if what stands behind the last one cannot be taken for one more
of them. -/
theorem eq_of_flatMap_append (delimiting : SelfDelimiting write) (isEnd : Text → Prop)
    (goesOn : ∀ item rest, ¬isEnd (write item ++ rest)) {items others : List α}
    {behind other : Text} (ends : isEnd behind) (otherEnds : isEnd other)
    (same : items.flatMap write ++ behind = others.flatMap write ++ other) :
    items = others ∧ behind = other := by
  induction items generalizing others with
  | nil =>
      cases others with
      | nil => exact ⟨rfl, same⟩
      | cons next rest =>
          rw [List.flatMap_nil, List.nil_append, List.flatMap_cons, List.append_assoc] at same
          exact absurd (same ▸ ends) (goesOn next _)
  | cons item items inductionHypothesis =>
      cases others with
      | nil =>
          rw [List.flatMap_nil, List.nil_append, List.flatMap_cons, List.append_assoc] at same
          exact absurd (same ▸ otherEnds) (goesOn item _)
      | cons next rest =>
          rw [List.flatMap_cons, List.append_assoc, List.flatMap_cons, List.append_assoc] at same
          rcases delimiting same with ⟨rfl, sameRest⟩
          rcases inductionHypothesis sameRest with ⟨rfl, sameBehind⟩
          exact ⟨rfl, sameBehind⟩

/-- Things in a row, closed by a character that none of them starts with. -/
theorem flatMap_closed (delimiting : SelfDelimiting write) (closing : Char)
    (goesOn : ∀ item rest, (write item ++ rest).head? ≠ some closing) :
    SelfDelimiting fun items : List α => items.flatMap write ++ [closing] := by
  intro items others behind other same
  rw [List.append_assoc, List.append_assoc] at same
  rcases delimiting.eq_of_flatMap_append (fun text => text.head? = some closing) goesOn rfl rfl same
    with ⟨rfl, sameBehind⟩
  exact ⟨rfl, List.append_cancel_left sameBehind⟩

end SelfDelimiting

end

/-- Two runs of characters of one kind are the same if what stands behind each of them starts with
a character of another kind. -/
theorem eq_of_run_append {isInside : Char → Bool} {first second behind other : Text}
    (inside : ∀ c ∈ first, isInside c) (otherInside : ∀ c ∈ second, isInside c)
    (stops : ∀ c ∈ behind.head?, ¬isInside c) (otherStops : ∀ c ∈ other.head?, ¬isInside c)
    (same : first ++ behind = second ++ other) : first = second ∧ behind = other := by
  have takeWhile_run {run rest : Text} (runInside : ∀ c ∈ run, isInside c)
      (restStops : ∀ c ∈ rest.head?, ¬isInside c) : (run ++ rest).takeWhile isInside = run := by
    rw [List.takeWhile_append_of_pos runInside]
    cases rest with
    | nil => exact List.append_nil run
    | cons c rest =>
        have outside : isInside c = false := by simpa using restStops c rfl
        rw [List.takeWhile_cons, if_neg (by simp [outside]), List.append_nil]
  have sameRun := takeWhile_run inside stops
  rw [same, takeWhile_run otherInside otherStops] at sameRun
  subst sameRun
  exact ⟨rfl, List.append_cancel_left same⟩

theorem joinWith_cons_eq (separator text : Text) (texts : List Text) :
    joinWith separator (text :: texts) = text ++ texts.flatMap (separator ++ ·) := by
  induction texts generalizing text with
  | nil => exact (List.append_nil text).symm
  | cons next texts inductionHypothesis =>
      rw [joinWith_cons _ _ (List.cons_ne_nil _ _), inductionHypothesis, List.flatMap_cons,
        List.append_assoc, List.append_assoc]

theorem joinWith_append_cons (separator : Text) (texts : List Text) (text : Text)
    (others : List Text) :
    joinWith separator (texts ++ text :: others) =
      texts.flatMap (· ++ separator) ++ joinWith separator (text :: others) := by
  induction texts with
  | nil => rfl
  | cons first texts inductionHypothesis =>
      rw [List.cons_append, joinWith_cons _ _ (by simp), inductionHypothesis, List.flatMap_cons,
        List.append_assoc _ _ (joinWith separator (text :: others))]

end Text

namespace Numeral

/-- A number ends before a character that does not occur in numbers. -/
theorem selfDelimiting_integer (closing : Char) (apart : closing ≠ '-' ∧ ¬closing.isDigit) :
    Text.SelfDelimiting fun n => integer n ++ [closing] := by
  intro n m behind other same
  rw [List.append_assoc, List.append_assoc] at same
  have inside (k : Int) : ∀ c ∈ integer k, (c = '-' || c.isDigit) = true := by
    intro c cMem
    simpa using mem_integer cMem
  have stops (rest : Text) :
      ∀ c ∈ ([closing] ++ rest).head?, ¬(c = '-' || c.isDigit) = true := by
    rintro c ⟨⟩
    simpa using apart
  rcases Text.eq_of_run_append (inside n) (inside m) (stops behind) (stops other) same with
    ⟨sameNumeral, sameBehind⟩
  exact ⟨integer_injective sameNumeral, List.append_cancel_left sameBehind⟩

end Numeral

end Lexeme
