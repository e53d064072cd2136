import Lexeme.Entries
import Lexeme.Proofs.Encoding.Name
import Lexeme.Proofs.Locate.Handle

/-!
# Histories of sessions

Several cursors step through the tokens of one session, while its handle is moved and read, texts
are looked up, blocks are entered and left, and tokens come and go. None of this disturbs a cursor:
its answers are those of a cursor that is alone with the source and sees the tokens as they are at
its own steps.
-/

namespace Lexeme

namespace Session

/-- A step made in a session, with the tokens that it found and what came of it. -/
structure Event where
  step : Step
  tokens : List Token
  outcome : Except StepFailure Answer

/-- What happens between two states of a session, as the events of its steps. Beside steps, the
owner may change the tokens in any way, and anything may happen inside a block. A block that is
refused changes nothing. -/
inductive History : Session → List Event → Session → Prop
  | nothing (session : Session) : History session [] session
  | step {session after : Session} {events : List Event} (step : Step)
      (rest : History (session.step step).2 events after) :
      History session (⟨step, session.tokens, (session.step step).1⟩ :: events) after
  | edit {session after : Session} {events : List Event} (tokens : List Token)
      (records : List Bytes) (rest : History { session with tokens, records } events after) :
      History session events after
  | block {session inner after : Session} {during later : List Event} {moved source : Source}
      (offset : Int) (moves : session.source.seek offset = .ok moved)
      (body : History { session with source := moved } during inner)
      (leaves : session.source.readingAt offset Failure.refusal (fun _ => (.ok (), inner.source)) =
        (.ok (), source))
      (rest : History { inner with source } later after) :
      History session (during ++ later) after

def Step.advances (name : String) : Step → Bool
  | .advance other => other == name
  | _ => false

/-- The steps of one cursor. -/
def stepsOf (name : String) (events : List Event) : List Event :=
  events.filter (·.step.advances name)

/-- The item in what came of a step, if it is one. -/
def item? : Except StepFailure Answer → Option (Token × Text)
  | .ok (.item token text) => some (token, text)
  | _ => none

/-- The answer of a cursor as what comes of a step. -/
def ofCursor : Except Failure (Cursor.Answer Token) → Except StepFailure Answer
  | .ok (.item token text) => .ok (.item token text)
  | .ok .exhausted => .ok .exhausted
  | .error failure => .error (.failure failure)

@[simp]
theorem item?_ofCursor (answer : Except Failure (Cursor.Answer Token)) :
    item? (ofCursor answer) = Cursor.item? answer := by
  rcases answer with failure | ⟨token, text⟩ | _ <;> rfl

end Session

theorem ScopedRead.isDiscreet_runNested (blocks : List ScopedRead) :
    Source.IsDiscreet fun source => runNested source blocks := by
  induction blocks with
  | nil => exact Source.isDiscreet_pure _
  | cons block inner inductionHypothesis =>
      apply Source.isDiscreet_readingAt
      intro moved
      split
      · rfl
      · next data afterRead reads =>
          have kept : (runNested afterRead inner).2.contents = moved.contents := by
            rw [inductionHypothesis.snd afterRead, Source.contents_of_read reads]
          split
          · next ran => rwa [ran] at kept
          · next ran =>
              rw [ran] at kept
              split
              · exact kept
              · exact kept

namespace Session

variable {session after : Session} {name : String} {cursor : Cursor} {events : List Event}

theorem lookup_setCursor_self (name : String) (cursor : Cursor)
    (cursors : List (String × Cursor)) :
    (setCursor name cursor cursors).lookup name = some cursor := by
  rw [setCursor, List.lookup_cons_self]

theorem lookup_setCursor_of_ne {other : String} (different : other ≠ name) (cursor : Cursor)
    (cursors : List (String × Cursor)) :
    (setCursor name cursor cursors).lookup other = cursors.lookup other := by
  rw [setCursor, List.lookup_cons_filter_ne, if_neg]
  simpa using different

/-- No step changes the contents of the source. -/
theorem contents_step (session : Session) (step : Step) :
    (session.step step).2.source.contents = session.source.contents := by
  cases step with
  | seek offset =>
      simp only [Session.step]
      split
      · rfl
      · next moves => exact Source.contents_of_seek moves
  | read length =>
      simp only [Session.step]
      split
      · rfl
      · next reads => exact Source.contents_of_read reads
  | push draft =>
      simp only [Session.step]
      split <;> rfl
  | pop =>
      simp only [Session.step]
      split <;> rfl
  | text mark encoding =>
      simp only [Session.step, lookup, (Source.isDiscreet_tokenText mark _ encoding).snd]
  | packedText draft encoding =>
      simp only [Session.step]
      split
      · rfl
      · simp only [lookup, (Source.isDiscreet_packedText _ _ encoding).snd]
  | openCursor name encoding => rfl
  | advance name =>
      simp only [Session.step]
      split
      · rfl
      · next cursor found =>
          have kept := (Source.isDiscreet_step cursor session.tokens).snd session.source
          simp only at kept
          split <;> simp only [kept]
  | readNested blocks =>
      simp only [Session.step, (ScopedRead.isDiscreet_runNested blocks).snd]

/-- A step changes a cursor only by advancing it or by opening another one in its place. -/
theorem lookup_cursors_step (session : Session) {made : Step}
    (notAdvanced : made.advances name = false)
    (notOpened : ∀ encoding, made ≠ .openCursor name encoding) :
    (session.step made).2.cursors.lookup name = session.cursors.lookup name := by
  cases made with
  | seek | read | push | pop | packedText =>
      simp only [Session.step]
      split <;> rfl
  | text => rfl
  | readNested => rfl
  | openCursor other encoding =>
      have different : name ≠ other := by
        rintro rfl
        exact notOpened encoding rfl
      exact lookup_setCursor_of_ne different _ _
  | advance other =>
      have different : name ≠ other := by
        rintro rfl
        simp [Step.advances] at notAdvanced
      simp only [Session.step]
      split
      · rfl
      · split <;> exact lookup_setCursor_of_ne different _ _

/-- A cursor is advanced as if it were alone with the source. -/
theorem step_advance (found : session.cursors.lookup name = some cursor) :
    (session.step (.advance name)).1 =
        ofCursor (cursor.step session.tokens (.ofBytes session.source.contents)).1 ∧
      (session.step (.advance name)).2.cursors.lookup name =
        some (cursor.step session.tokens (.ofBytes session.source.contents)).2.1 := by
  have alone := Source.isDiscreet_step cursor session.tokens session.source
  simp only [Prod.mk.injEq] at alone
  rcases alone with ⟨⟨sameAnswer, sameCursor⟩, _⟩
  rw [← sameAnswer, ← sameCursor]
  simp only [Session.step, found]
  split <;> next answered => exact ⟨by rw [answered]; rfl, lookup_setCursor_self _ _ _⟩

/-- What has become of a cursor in a history: its answers, and the cursor itself, are those of a
cursor that is alone with the source and sees the tokens that its own steps found. -/
structure IsFollowed (name : String) (cursor : Cursor) (contents : Bytes) (events : List Event)
    (after : Session) : Prop where
  contents_eq : after.source.contents = contents
  outcomes_eq : (stepsOf name events).map Event.outcome =
    (cursor.stepAll contents ((stepsOf name events).map Event.tokens)).1.map ofCursor
  lookup_eq : after.cursors.lookup name =
    some (cursor.stepAll contents ((stepsOf name events).map Event.tokens)).2

theorem IsFollowed.cons {contents : Bytes} {event : Event}
    (advances : event.step.advances name = true)
    (answered : event.outcome = ofCursor (cursor.step event.tokens (.ofBytes contents)).1)
    (rest : IsFollowed name (cursor.step event.tokens (.ofBytes contents)).2.1 contents events
      after) : IsFollowed name cursor contents (event :: events) after := by
  have own : stepsOf name (event :: events) = event :: stepsOf name events :=
    List.filter_cons_of_pos advances
  refine ⟨rest.contents_eq, ?_, ?_⟩
  · rw [own, List.map_cons, List.map_cons, answered, rest.outcomes_eq]
    rfl
  · rw [own, List.map_cons, rest.lookup_eq]
    rfl

theorem IsFollowed.append {contents : Bytes} {during later : List Event} {inner : Session}
    (first : IsFollowed name cursor contents during inner)
    (rest : IsFollowed name
      (cursor.stepAll contents ((stepsOf name during).map Event.tokens)).2 contents later after) :
    IsFollowed name cursor contents (during ++ later) after := by
  have own : stepsOf name (during ++ later) = stepsOf name during ++ stepsOf name later :=
    List.filter_append ..
  refine ⟨rest.contents_eq, ?_, ?_⟩
  · rw [own, List.map_append, List.map_append, Cursor.stepAll_append, List.map_append,
      first.outcomes_eq, rest.outcomes_eq]
  · rw [own, List.map_append, Cursor.stepAll_append, rest.lookup_eq]

theorem IsFollowed.filterMap_item? {contents : Bytes}
    (followed : IsFollowed name cursor contents events after) :
    (stepsOf name events).filterMap (item? ·.outcome) =
      (cursor.stepAll contents ((stepsOf name events).map Event.tokens)).1.filterMap
        Cursor.item? := by
  calc (stepsOf name events).filterMap (item? ·.outcome)
      = ((stepsOf name events).map Event.outcome).filterMap item? := by
        rw [List.filterMap_map]
        rfl
    _ = _ := by
        rw [followed.outcomes_eq, List.filterMap_map]
        simp only [Function.comp_def, item?_ofCursor]

/-- A step of a cursor that stands at an index reads the tokens of its own event, as long as all
steps before it gave items. -/
theorem IsFollowed.outcome_eq {contents : Bytes} {start index : Nat} {event : Event}
    (followed : IsFollowed name cursor contents events after) (here : cursor.next = some start)
    (made : (stepsOf name events)[index]? = some event) :
    event.outcome =
      if ((stepsOf name events).take index).all (item? ·.outcome |>.isSome) then
        ofCursor (Cursor.reading cursor.encoding contents event.tokens (start + index))
      else .ok .exhausted := by
  have allItems : ((stepsOf name events).take index).all (item? ·.outcome |>.isSome) =
      ((cursor.stepAll contents ((stepsOf name events).map Event.tokens)).1.take index).all
        (Cursor.item? · |>.isSome) := by
    calc ((stepsOf name events).take index).all (item? ·.outcome |>.isSome)
        = (((stepsOf name events).map Event.outcome).take index).all (item? · |>.isSome) := by
          rw [← List.map_take, List.all_map]
          rfl
      _ = _ := by
          rw [followed.outcomes_eq, ← List.map_take, List.all_map]
          simp only [Function.comp_def, item?_ofCursor]
  have answered : some event.outcome = ((stepsOf name events).map Event.outcome)[index]? := by
    rw [List.getElem?_map, made, Option.map_some]
  rw [followed.outcomes_eq, List.getElem?_map, Cursor.getElem?_stepAll here, List.getElem?_map,
    made, Option.map_some, Option.map_some, ← allItems] at answered
  rw [Option.some.inj answered, apply_ite ofCursor]
  rfl

theorem History.isFollowed (history : History session events after)
    (found : session.cursors.lookup name = some cursor)
    (notOpened : ∀ event ∈ events, ∀ encoding, event.step ≠ .openCursor name encoding) :
    IsFollowed name cursor session.source.contents events after := by
  -- The cursor is general: a step of its own moves it, and a block hands it on to the code inside
  -- and takes it back from there.
  induction history generalizing cursor with
  | nothing session => exact ⟨rfl, rfl, found⟩
  | @step session after events made rest inductionHypothesis =>
      rw [List.forall_mem_cons] at notOpened
      rw [contents_step] at inductionHypothesis
      cases advances : made.advances name with
      | true =>
          obtain rfl : made = .advance name := by
            cases made <;> simp_all [Step.advances]
          have alone := step_advance found
          exact .cons advances alone.1 (inductionHypothesis alone.2 notOpened.2)
      | false =>
          rw [lookup_cursors_step session advances notOpened.1] at inductionHypothesis
          have followed := inductionHypothesis found notOpened.2
          have own : stepsOf name (⟨made, session.tokens, (session.step made).1⟩ :: events) =
              stepsOf name events := List.filter_cons_of_neg (by simp [advances])
          exact ⟨followed.contents_eq, own ▸ followed.outcomes_eq, own ▸ followed.lookup_eq⟩
  | edit tokens records rest inductionHypothesis => exact inductionHypothesis found notOpened
  | @block session inner after during later moved source offset moves body leaves rest
      bodyHypothesis restHypothesis =>
      rw [List.forall_mem_append] at notOpened
      have inside := bodyHypothesis found notOpened.1
      dsimp only at inside
      rw [Source.contents_of_seek moves] at inside
      have behind := restHypothesis inside.lookup_eq notOpened.2
      have kept : source.contents = session.source.contents := by
        rw [Source.readingAt_of_seek moves, Prod.mk.injEq] at leaves
        rw [← leaves.2, inside.contents_eq]
      dsimp only at behind
      rw [kept] at behind
      exact inside.append behind

end Session

/-- However a session goes on after a cursor is opened, each step of the cursor reads the tokens
that are there at that moment, at the index of the items that it has given: it gives the token with
its text or says why there is none, and beyond the last token it is exhausted. After anything but
an item it stays exhausted. As long as its steps find the same tokens, its items are the first ones
that reading all texts in order gives. -/
theorem cursors_read_tokens_as_they_are {session after : Session} {name : String}
    {encoding : Text} {events : List Session.Event}
    (history : Session.History (session.step (.openCursor name encoding)).2 events after)
    (notReopened : ∀ event ∈ events, ∀ other, event.step ≠ .openCursor name other) :
    (∀ index event, (Session.stepsOf name events)[index]? = some event →
      event.outcome =
        if ((Session.stepsOf name events).take index).all (Session.item? ·.outcome |>.isSome) then
          Session.ofCursor (Cursor.reading encoding session.source.contents event.tokens index)
        else .ok .exhausted) ∧
    (∀ tokens, (∀ event ∈ Session.stepsOf name events, event.tokens = tokens) →
      (Session.stepsOf name events).filterMap (Session.item? ·.outcome) <+:
        (session.source.texts encoding tokens).1.items) := by
  have followed := history.isFollowed (Session.lookup_setCursor_self _ _ _) notReopened
  have atFirst : (Cursor.start encoding).next = some 0 := rfl
  constructor
  · intro index event made
    rw [followed.outcome_eq atFirst made, Nat.zero_add]
    rfl
  · intro tokens same
    have unchanged : (Session.stepsOf name events).map Session.Event.tokens =
        List.replicate (Session.stepsOf name events).length tokens :=
      List.map_eq_replicate_iff.mpr same
    rw [followed.filterMap_item?, unchanged]
    exact Cursor.filterMap_item?_stepAll atFirst session.source tokens _

/-- A cursor gives an item inside a block where another one is opened, then finds no second token,
and stays exhausted when there is one again. -/
theorem cursors_read_tokens_as_they_are_of_shrinking :
    ∃ events after first second third,
      Session.History ((Session.mk (.ofBytes [43, 45]) [⟨0, .plus⟩, ⟨1, .minus⟩] [] []).step
        (.openCursor "own" "utf-8".toList)).2 events after ∧
      (∀ event ∈ events, ∀ other, event.step ≠ .openCursor "own" other) ∧
      events.map Session.Event.step =
        [.openCursor "other" [], .advance "own", .pop, .advance "own",
          .push ⟨.int 1, .known .minus⟩, .advance "own"] ∧
      Session.stepsOf "own" events = [first, second, third] ∧
      first.outcome = .ok (.item ⟨0, .plus⟩ ['+']) ∧ second.outcome = .ok .exhausted ∧
      third.outcome = .ok .exhausted := by
  have history : Session.History
      ((Session.mk (.ofBytes [43, 45]) [⟨0, .plus⟩, ⟨1, .minus⟩] [] []).step
        (.openCursor "own" "utf-8".toList)).2 _ _ :=
    .block 1 rfl (.step (.openCursor "other" []) (.step (.advance "own") (.nothing _))) rfl
      (.step .pop (.step (.advance "own")
        (.step (.push ⟨.int 1, .known .minus⟩) (.step (.advance "own") (.nothing _)))))
  refine ⟨_, _, _, _, _, history, by simp, rfl, rfl, ?_⟩
  have each := (cursors_read_tokens_as_they_are history (by simp)).1
  exact ⟨each 0 _ rfl, each 1 _ rfl, each 2 _ rfl⟩

end Lexeme
