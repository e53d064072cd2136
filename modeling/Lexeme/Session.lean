import Lexeme.Locate

/-!
# Sessions over one source

A session is a source handle that several users share: it is moved and read directly,
texts are looked up through it, any number of cursors step through it, and blocks read
at an offset of their own. The sequence of tokens may grow and shrink at its end in
between; a copy of it as records is kept alongside.
-/

namespace Lexeme

/-- A read at an offset for the duration of a block. -/
structure ScopedRead where
  offset : Int
  length : Option Int
  /-- The message of an error that the block ends with. -/
  raised : Option String

inductive StepFailure
  | failure (failure : Failure)
  | raised (message : String)

namespace ScopedRead

/-- Runs blocks that are nested in each other, the outermost first. Each block gives what
it read and the position at its end. -/
def runNested (source : Source) :
    List ScopedRead → Except StepFailure (List (Bytes × Nat)) × Source
  | [] => (.ok [], source)
  | block :: inner =>
    source.readingAt block.offset (fun refusal => .failure (.refusal refusal)) fun moved =>
      match moved.read block.length with
      | .error refusal => (.error (.failure (.refusal refusal)), moved)
      | .ok (data, afterRead) =>
        match runNested afterRead inner with
        | (.error failure, afterInner) => (.error failure, afterInner)
        | (.ok results, afterInner) =>
          match block.raised with
          | some message => (.error (.raised message), afterInner)
          | none => (.ok ((data, afterInner.position) :: results), afterInner)

end ScopedRead

/-- A shared handle, the tokens that texts are located with, and the cursors in use. -/
structure Session where
  source : Source
  tokens : List Token
  records : List Bytes
  cursors : List (String × Cursor)

inductive Session.Step
  | seek (offset : Int)
  | read (length : Option Int)
  | push (draft : Draft)
  | pop
  | text (mark : Mark) (encoding : Text)
  | packedText (draft : Draft) (encoding : Text)
  | openCursor (name : String) (encoding : Text)
  | advance (name : String)
  | readNested (blocks : List ScopedRead)

inductive Session.Answer
  | nothing
  | data (data : Bytes)
  | length (length : Nat)
  | token (token : Token)
  | text (text : Text)
  | item (token : Token) (text : Text)
  | exhausted
  | noCursor
  | nested (results : List (Bytes × Nat))

namespace Session

/-- A session at the start of a source, over tokens and their records. -/
def start (contents : Bytes) (drafts : List Draft) : Except Failure Session := do
  let settled ← drafts.mapM Draft.settle
  pure ⟨.ofBytes contents, settled.map Prod.fst, settled.map Prod.snd, []⟩

def setCursor (name : String) (cursor : Cursor) (cursors : List (String × Cursor)) :
    List (String × Cursor) :=
  (name, cursor) :: cursors.filter (·.1 != name)

def lookup (session : Session) (result : Except Failure Text × Source) :
    Except StepFailure Answer × Session :=
  (match result.1 with
    | .ok text => .ok (.text text)
    | .error failure => .error (.failure failure),
    { session with source := result.2 })

def step (session : Session) : Step → Except StepFailure Answer × Session
  | .seek offset =>
    match session.source.seek offset with
    | .error refusal => (.error (.failure (.refusal refusal)), session)
    | .ok source => (.ok .nothing, { session with source })
  | .read length =>
    match session.source.read length with
    | .error refusal => (.error (.failure (.refusal refusal)), session)
    | .ok (data, source) => (.ok (.data data), { session with source })
  | .push draft =>
    match draft.settle with
    | .error failure => (.error (.failure failure), session)
    | .ok (token, record) =>
      let tokens := session.tokens ++ [token]
      (.ok (.length tokens.length),
        { session with tokens, records := session.records ++ [record] })
  | .pop =>
    match session.tokens.getLast? with
    | none => (.ok .nothing, session)
    | some token =>
      (.ok (.token token),
        { session with tokens := session.tokens.dropLast, records := session.records.dropLast })
  | .text mark encoding =>
    session.lookup (session.source.tokenText mark session.tokens encoding)
  | .packedText draft encoding =>
    match draft.check with
    | .error failure => (.error (.failure failure), session)
    | .ok token => session.lookup (session.source.packedText token session.records encoding)
  | .openCursor name encoding =>
    (.ok .nothing,
      { session with cursors := setCursor name (.start encoding) session.cursors })
  | .advance name =>
    match session.cursors.lookup name with
    | none => (.ok .noCursor, session)
    | some cursor =>
      let (answer, moved, source) := cursor.step session.tokens session.source
      let after := { session with source, cursors := setCursor name moved session.cursors }
      match answer with
      | .error failure => (.error (.failure failure), after)
      | .ok .exhausted => (.ok .exhausted, after)
      | .ok (.item token text) => (.ok (.item token text), after)
  | .readNested blocks =>
    let (result, source) := ScopedRead.runNested session.source blocks
    (result.map .nested, { session with source })

/-- Performs steps one after the other. Each outcome is given with the position of the
handle after the step. -/
def run (session : Session) : List Step → List (Except StepFailure Answer × Nat)
  | [] => []
  | step :: steps =>
    let (answer, after) := session.step step
    (answer, after.source.position) :: after.run steps

end Session

end Lexeme
