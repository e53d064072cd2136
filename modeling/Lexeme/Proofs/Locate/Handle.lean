import Lexeme.Dump
import Lexeme.Session
import Lexeme.Proofs.Locate.Cursor

/-!
# What is done with a handle

Looking texts up, stepping a cursor, dumping tokens and working inside a block all move a handle
that belongs to somebody else. None of them lets its owner notice: the handle is left where it was,
and where it was has no effect on what comes of it. Code may do such things in any order and inside
each other, and what it does next may depend on everything it has got so far.
-/

namespace Lexeme

namespace Source

/-- Whether what is done with a handle gives from any position what it gives from the start, and
leaves the handle as it was. -/
def IsDiscreet {α : Type} (visit : Source → α × Source) : Prop :=
  ∀ source, visit source = ((visit (.ofBytes source.contents)).1, source)

theorem isDiscreet_pure {α : Type} (value : α) :
    IsDiscreet fun source => (value, source) := by
  intro source
  rfl

theorem IsDiscreet.map {α β : Type} {visit : Source → α × Source} (discreet : IsDiscreet visit)
    (change : α → β) : IsDiscreet fun source => (change (visit source).1, (visit source).2) := by
  intro source
  simp only [discreet source]

theorem IsDiscreet.snd {α : Type} {visit : Source → α × Source} (discreet : IsDiscreet visit)
    (source : Source) : (visit source).2 = source := by
  rw [discreet source]

section

variable {α : Type} [ToMark α]

theorem isDiscreet_tokenText (mark : Mark) (sequence : List α) (encoding : Text) :
    IsDiscreet fun source => source.tokenText mark sequence encoding := by
  intro source
  simp only [tokenText, readSpan_eq, ofBytes]
  split <;> rfl

theorem isDiscreet_packedText (token : Token) (records : List Bytes) (encoding : Text) :
    IsDiscreet fun source => source.packedText token records encoding := by
  intro source
  simp only [packedText, readSpan_eq, ofBytes]
  split
  · rfl
  · split
    · split <;> rfl
    · rfl

/-- A step of a cursor gives an answer and the cursor behind it. -/
theorem isDiscreet_step (cursor : Cursor) (sequence : List α) :
    IsDiscreet fun source =>
      (((cursor.step sequence source).1, (cursor.step sequence source).2.1),
        (cursor.step sequence source).2.2) := by
  intro source
  cases here : cursor.next with
  | none => simp only [Cursor.step_of_ended here]
  | some index => simp only [Cursor.step_of_next here, ofBytes]

theorem isDiscreet_rowsWithTexts (encoding : Text) (sequence : List α) :
    IsDiscreet fun source => Dump.rowsWithTexts encoding source sequence := by
  intro source
  induction sequence with
  | nil => rfl
  | cons member rest inductionHypothesis =>
      simp only [Dump.rowsWithTexts, readSpan_eq, ofBytes] at inductionHypothesis ⊢
      cases (toMark member).textIn (nextOffset rest.head?) encoding source.contents with
      | error failure => rfl
      | ok text =>
          dsimp only
          cases Dump.Row.ofMark (toMark member) (some text) with
          | error failure => rfl
          | ok row => rw [inductionHypothesis]

theorem isDiscreet_withTexts (sequence : List α) (encoding : Text) :
    IsDiscreet fun source => Dump.withTexts sequence source encoding :=
  (isDiscreet_rowsWithTexts encoding sequence).map fun rows =>
    (Dump.render sequence.length rows.items, rows.failure)

end

/-- A block is discreet whatever is done inside, as long as the contents stay the same. -/
theorem isDiscreet_readingAt {ε α : Type} (offset : Int) (refuse : Refusal → ε)
    {body : Source → Except ε α × Source}
    (keeps : ∀ source, (body source).2.contents = source.contents) :
    IsDiscreet fun source => source.readingAt offset refuse body := by
  intro source
  simp only [readingAt, seek]
  cases seekRefusal? offset with
  | some refusal => rfl
  | none =>
      have kept := keeps ⟨source.contents, offset.toNat⟩
      simp only at kept
      simp only [ofBytes, kept]

theorem readingAt_of_seek {ε α : Type} {source moved : Source} {offset : Int}
    (moves : source.seek offset = .ok moved) (refuse : Refusal → ε)
    (body : Source → Except ε α × Source) :
    source.readingAt offset refuse body =
      ((body moved).1, { (body moved).2 with position := source.position }) := by
  simp only [readingAt, moves]

/-- What comes of an operation on a handle. -/
inductive Outcome (ρ : Type)
  | text (result : Except Failure Text)
  | advanced (result : Except Failure (Cursor.Answer Mark)) (cursor : Cursor)
  | dumped (written : Text) (failure : Option Failure)
  | finished (result : Except StepFailure ρ)

mutual

/-- An operation on a handle that belongs to somebody else. -/
inductive Operation (ρ : Type)
  | text (mark : Mark) (sequence : List Mark) (encoding : Text)
  | packedText (draft : Draft) (records : List Bytes) (encoding : Text)
  | advance (cursor : Cursor) (sequence : List Mark)
  | dump (sequence : List Mark) (encoding : Text)
  | block (offset : Int) (body : Block ρ)

/-- Code inside a block. It moves and reads the handle itself, does operations on it, and ends with
a result of its own or with an error. -/
inductive Block (ρ : Type)
  | finish (result : Except StepFailure ρ)
  | seek (offset : Int) (next : Except Refusal Unit → Block ρ)
  | read (length : Option Int) (next : Except Refusal Bytes → Block ρ)
  | tell (next : Nat → Block ρ)
  | perform (operation : Operation ρ) (next : Outcome ρ → Block ρ)

end

/-- Code outside of all blocks: one operation after the other. -/
inductive Client (ρ : Type)
  | finish
  | perform (operation : Operation ρ) (next : Outcome ρ → Client ρ)

variable {ρ : Type}

mutual

def Operation.run : Operation ρ → Source → Outcome ρ × Source
  | .text mark sequence encoding, source =>
    let (result, after) := source.tokenText mark sequence encoding
    (.text result, after)
  | .packedText draft records encoding, source =>
    match draft.check with
    | .error failure => (.text (.error failure), source)
    | .ok token =>
      let (result, after) := source.packedText token records encoding
      (.text result, after)
  | .advance cursor sequence, source =>
    let (result, moved, after) := cursor.step sequence source
    (.advanced result moved, after)
  | .dump sequence encoding, source =>
    let ((written, failure), after) := Dump.withTexts sequence source encoding
    (.dumped written failure, after)
  | .block offset body, source =>
    let (result, after) :=
      source.readingAt offset (fun refusal => .failure (.refusal refusal)) body.run
    (.finished result, after)

def Block.run : Block ρ → Source → Except StepFailure ρ × Source
  | .finish result, source => (result, source)
  | .seek offset next, source =>
    match source.seek offset with
    | .error refusal => (next (.error refusal)).run source
    | .ok moved => (next (.ok ())).run moved
  | .read length next, source =>
    match source.read length with
    | .error refusal => (next (.error refusal)).run source
    | .ok (data, after) => (next (.ok data)).run after
  | .tell next, source => (next source.position).run source
  | .perform operation next, source =>
    let (outcome, after) := operation.run source
    (next outcome).run after

end

/-- What comes of each operation, with the handle as it is afterwards. -/
def Client.run : Client ρ → Source → List (Outcome ρ × Source)
  | .finish, _ => []
  | .perform operation next, source =>
    let (outcome, after) := operation.run source
    (outcome, after) :: (next outcome).run after

theorem contents_of_seek {source moved : Source} {offset : Int}
    (moves : source.seek offset = .ok moved) : moved.contents = source.contents := by
  rw [seek] at moves
  split at moves
  · contradiction
  · rw [← Except.ok.inj moves]

theorem contents_of_read {source after : Source} {length : Option Int} {data : Bytes}
    (reads : source.read length = .ok (data, after)) : after.contents = source.contents := by
  rw [read] at reads
  split at reads
  · contradiction
  · rw [← (Prod.mk.inj (Except.ok.inj reads)).2]

-- A block is discreet since the code inside keeps the contents, and that code keeps them since the
-- operations inside are discreet.
mutual

theorem Operation.isDiscreet_run : (operation : Operation ρ) → IsDiscreet operation.run
  | .text mark sequence encoding => (isDiscreet_tokenText mark sequence encoding).map Outcome.text
  | .packedText draft records encoding => by
      intro source
      simp only [Operation.run]
      cases draft.check with
      | error failure => rfl
      | ok token => exact (isDiscreet_packedText token records encoding).map Outcome.text source
  | .advance cursor sequence =>
      (isDiscreet_step cursor sequence).map fun answer => Outcome.advanced answer.1 answer.2
  | .dump sequence encoding =>
      (isDiscreet_withTexts sequence encoding).map fun dump => Outcome.dumped dump.1 dump.2
  | .block offset body =>
      (isDiscreet_readingAt offset _ body.contents_run).map Outcome.finished

/-- Code inside a block leaves the contents alone. -/
theorem Block.contents_run :
    (block : Block ρ) → (source : Source) → (block.run source).2.contents = source.contents
  | .finish _, _ => rfl
  | .seek offset next, source => by
      rw [Block.run]
      split
      · exact (next _).contents_run source
      · next moved moves => exact ((next _).contents_run moved).trans (contents_of_seek moves)
  | .read length next, source => by
      rw [Block.run]
      split
      · exact (next _).contents_run source
      · next data after reads => exact ((next _).contents_run after).trans (contents_of_read reads)
  | .tell next, source => (next source.position).contents_run source
  | .perform operation next, source => by
      rw [Block.run, operation.isDiscreet_run source]
      exact (next _).contents_run source

end

/-- Inside a block, too, the code goes on where it was before an operation. -/
theorem Block.run_perform (operation : Operation ρ) (next : Outcome ρ → Block ρ)
    (source : Source) :
    (Block.perform operation next).run source =
      (next (operation.run (.ofBytes source.contents)).1).run source := by
  rw [run, operation.isDiscreet_run source]

theorem Client.run_eq (client : Client ρ) (source : Source) :
    client.run source =
      (client.run (.ofBytes source.contents)).map fun outcome => (outcome.1, source) := by
  induction client with
  | finish => rfl
  | perform operation next inductionHypothesis =>
      have atStart := operation.isDiscreet_run (.ofBytes source.contents)
      rw [run, run, operation.isDiscreet_run source, atStart]
      simp only [inductionHypothesis, List.map_cons]

end Source

/-- Whatever operations are done on a handle, each leaves it as it was, and what comes of them is
the same from all positions. Operations inside a block leave the block's own position alone in the
same way. -/
theorem handle_is_left_as_found {ρ : Type} (client : Source.Client ρ) (contents : Bytes) :
    (∃ outcomes : List (Source.Outcome ρ), ∀ position,
      client.run ⟨contents, position⟩ = outcomes.map (·, ⟨contents, position⟩)) ∧
    ∀ (operation : Source.Operation ρ), ∃ outcome : Source.Outcome ρ, ∀ next position,
      operation.run ⟨contents, position⟩ = (outcome, ⟨contents, position⟩) ∧
      (Source.Block.perform operation next).run ⟨contents, position⟩ =
        (next outcome).run ⟨contents, position⟩ := by
  refine ⟨⟨(client.run (.ofBytes contents)).map Prod.fst, ?_⟩, ?_⟩
  · intro position
    rw [client.run_eq, List.map_map]
    rfl
  · intro operation
    refine ⟨(operation.run (.ofBytes contents)).1, ?_⟩
    intro next position
    exact ⟨operation.isDiscreet_run ⟨contents, position⟩, Source.Block.run_perform operation next _⟩

/-- A block that reads a byte goes on behind it after an inner block that reads to the end and
raises an error. -/
example :
    (Source.Client.perform (.block 2 (.read (some 1) fun _ =>
      .perform (.block 0 (.read none fun _ => .finish (.error (.raised "stop")))) fun _ =>
        .tell fun position => .finish (.ok position))) fun _ => .finish).run ⟨[5, 6, 7, 8], 1⟩ =
      [(.finished (.ok 3), ⟨[5, 6, 7, 8], 1⟩)] := rfl

end Lexeme
