import Lexeme.Proofs.Locate.Span

/-!
# Cursors

A step of a cursor reads the member at the cursor's index of the sequence as it is at that moment.
The cursor goes on behind an item and has ended after anything else. Over a sequence that stays the
same, its items are the first ones that reading all texts in order gives.
-/

namespace Lexeme

namespace Cursor

variable {α : Type} [ToMark α] {cursor : Cursor} {index : Nat}

/-- The answer of a cursor that stands at an index of a sequence. -/
def reading (encoding : Text) (contents : Bytes) (sequence : List α) (index : Nat) :
    Except Failure (Answer α) :=
  match sequence[index]? with
  | none => .ok .exhausted
  | some member =>
    ((toMark member).textIn (nextOffset sequence[index + 1]?) encoding contents).map (.item member)

/-- The item in an answer, if it is one. -/
def item? : Except Failure (Answer α) → Option (α × Text)
  | .ok (.item member text) => some (member, text)
  | _ => none

/-- The index behind an answer at an index, if the answer is an item. -/
def behind (index : Nat) (answer : Except Failure (Answer α)) : Option Nat :=
  if (item? answer).isSome then some (index + 1) else none

theorem step_of_ended (ended : cursor.next = none) (sequence : List α) (source : Source) :
    cursor.step sequence source = (.ok .exhausted, cursor, source) := by
  simp only [step, ended]

theorem step_of_next (here : cursor.next = some index) (sequence : List α) (source : Source) :
    cursor.step sequence source =
      (reading cursor.encoding source.contents sequence index,
        ⟨cursor.encoding, behind index (reading cursor.encoding source.contents sequence index)⟩,
        source) := by
  simp only [step, here, reading, Source.readSpan_eq]
  cases sequence[index]? with
  | none => rfl
  | some member =>
      dsimp only
      cases (toMark member).textIn (nextOffset sequence[index + 1]?) cursor.encoding
        source.contents with
      | error failure => rfl
      | ok text => rfl

/-- The answers of a cursor to one step over each of some sequences, and the cursor behind them. -/
def stepAll (cursor : Cursor) (contents : Bytes) :
    List (List α) → List (Except Failure (Answer α)) × Cursor
  | [] => ([], cursor)
  | sequence :: later =>
    let (answer, moved, _) := cursor.step sequence (.ofBytes contents)
    let (answers, last) := moved.stepAll contents later
    (answer :: answers, last)

theorem stepAll_append (cursor : Cursor) (contents : Bytes) (first later : List (List α)) :
    cursor.stepAll contents (first ++ later) =
      ((cursor.stepAll contents first).1 ++
          ((cursor.stepAll contents first).2.stepAll contents later).1,
        ((cursor.stepAll contents first).2.stepAll contents later).2) := by
  induction first generalizing cursor with
  | nil => rfl
  | cons sequence first inductionHypothesis =>
      simp only [List.cons_append, stepAll, inductionHypothesis]

theorem stepAll_of_ended (ended : cursor.next = none) (contents : Bytes)
    (sequences : List (List α)) :
    (cursor.stepAll contents sequences).1 = sequences.map fun _ => .ok .exhausted := by
  induction sequences with
  | nil => rfl
  | cons sequence later inductionHypothesis =>
      simp only [stepAll, step_of_ended ended, inductionHypothesis, List.map_cons]

theorem filterMap_item?_of_ended (ended : cursor.next = none) (contents : Bytes)
    (sequences : List (List α)) :
    (cursor.stepAll contents sequences).1.filterMap item? = [] := by
  rw [stepAll_of_ended ended, List.filterMap_map, List.filterMap_eq_nil_iff]
  intro sequence _
  rfl

/-- Each answer of a cursor reads the sequence of its own step, as long as all answers before it
are items. -/
theorem getElem?_stepAll (here : cursor.next = some index) (contents : Bytes)
    (sequences : List (List α)) (count : Nat) :
    (cursor.stepAll contents sequences).1[count]? = sequences[count]?.map fun sequence =>
      if ((cursor.stepAll contents sequences).1.take count).all (item? · |>.isSome) then
        reading cursor.encoding contents sequence (index + count)
      else .ok .exhausted := by
  induction sequences generalizing cursor index count with
  | nil => rfl
  | cons sequence later inductionHypothesis =>
      simp only [stepAll, step_of_next here, Source.ofBytes]
      cases count with
      | zero => rfl
      | succ count =>
          simp only [List.getElem?_cons_succ, List.take_succ_cons, List.all_cons]
          -- What follows anything but an item is exhausted, so only the first case goes on.
          by_cases gave : (item? (reading cursor.encoding contents sequence index)).isSome = true
          · have moved : behind index (reading cursor.encoding contents sequence index) =
                some (index + 1) := if_pos gave
            rw [inductionHypothesis moved]
            simp only [gave, Bool.true_and, Nat.add_right_comm index 1 count, Nat.add_assoc]
          · have ended : behind index (reading cursor.encoding contents sequence index) = none :=
              if_neg gave
            rw [stepAll_of_ended ended, List.getElem?_map]
            simp only [gave, Bool.false_and, Bool.false_eq_true, if_false]

/-- The items of a cursor over a sequence that stays the same come first among the texts of the
members from its index on. -/
theorem filterMap_item?_stepAll (here : cursor.next = some index) (source : Source)
    (sequence : List α) (count : Nat) :
    (cursor.stepAll source.contents (List.replicate count sequence)).1.filterMap item? <+:
      (source.texts cursor.encoding (sequence.drop index)).1.items := by
  induction count generalizing cursor index with
  | zero => exact List.nil_prefix
  | succ count inductionHypothesis =>
      simp only [List.replicate_succ, stepAll, step_of_next here, Source.ofBytes, reading]
      cases found : sequence[index]? with
      | none =>
          rw [List.filterMap_cons_none rfl, filterMap_item?_of_ended rfl]
          exact List.nil_prefix
      | some member =>
          rcases List.getElem?_eq_some_iff.mp found with ⟨inside, rfl⟩
          rw [List.drop_eq_getElem_cons inside, Source.texts, Source.readSpan_eq, List.head?_drop]
          dsimp only
          cases (toMark sequence[index]).textIn (nextOffset sequence[index + 1]?) cursor.encoding
            source.contents with
          | error failure =>
              rw [List.filterMap_cons_none rfl, filterMap_item?_of_ended rfl]
              exact List.nil_prefix
          | ok text =>
              have given : item? (Except.map (Answer.item sequence[index]) (.ok text)) =
                  some (sequence[index], text) := rfl
              rw [List.filterMap_cons_some given]
              exact (List.prefix_cons_inj _).mpr (inductionHypothesis rfl)

end Cursor

end Lexeme
