import Lexeme.Proofs.Word.Order

/-!
# Words of data put together

Data may be taken apart between two words. Then the words of the two parts, those of the second
part moved behind the first, are the words of the whole. Where this is possible can be seen from
the two bytes around the place, or three: there is a literal on one side of it or a line break
behind it, and it does not lie inside a line break. Anywhere else a word is torn.
-/

namespace Lexeme

section

variable (distance : Int)

/-- The same failure in data that stands behind some more bytes. -/
def Failure.moved : Failure → Failure
  | .fault (.undecodable data offset encoding defect) =>
    .fault (.undecodable data (offset + distance) encoding defect)
  | other => other

def Token.moved (token : Token) : Token :=
  ⟨token.offset + distance, token.category⟩

/-- The same words in data that stands behind some more bytes. -/
def Partial.moved (words : Partial (Int × Text)) : Partial (Int × Text) :=
  ⟨words.items.map fun word => (word.1 + distance, word.2),
    words.failure.map (Failure.moved distance)⟩

end

namespace Partial

variable {α : Type} {failure : Failure}

/-- Two sequences that are produced one after the other. The second one is not begun if the first
one stops early. -/
def followedBy (first second : Partial α) : Partial α :=
  match first.failure with
  | some _ => first
  | none => ⟨first.items ++ second.items, second.failure⟩

theorem followedBy_of_failure {first : Partial α} (stopped : first.failure = some failure)
    (second : Partial α) : first.followedBy second = first := by
  rw [followedBy, stopped]

theorem followedBy_of_complete {first : Partial α} (complete : first.failure = none)
    (second : Partial α) :
    first.followedBy second = ⟨first.items ++ second.items, second.failure⟩ := by
  rw [followedBy, complete]

theorem cons_followedBy (item : α) (first second : Partial α) :
    (first.cons item).followedBy second = (first.followedBy second).cons item := by
  cases ended : first.failure with
  | some failure =>
      have endedBehind : (first.cons item).failure = some failure := ended
      rw [followedBy_of_failure ended, followedBy_of_failure endedBehind]
  | none =>
      have endedBehind : (first.cons item).failure = none := ended
      rw [followedBy_of_complete ended, followedBy_of_complete endedBehind]
      rfl

end Partial

namespace Slice

/-- Whether no word is torn if data is taken apart between two parts. -/
def IsBoundary (first second : Bytes) : Prop :=
  (first = [] ∨ second = [] ∨ (∃ byte ∈ first.getLast?, IsLiteralByte byte) ∨
    (∃ byte ∈ second.head?, IsLiteralByte byte) ∨ lineBreak <+: second) ∧
  ¬(first.getLast? = some 0x0d ∧ second.head? = some 0x0a)

end Slice

namespace Piece

variable {first second source : Bytes} {piece next : Piece}

theorem getLast?_of_cut (last : (cut source).getLast? = some piece) :
    source.getLast? = piece.data.getLast? := by
  rcases List.getLast?_eq_some_iff.mp last with ⟨before, split⟩
  have nonempty := data_ne_nil (isProper_of_mem_cut source piece (by simp [split]))
  have joined := flatMap_data_cut source
  rw [split, List.flatMap_append, List.flatMap_singleton] at joined
  rw [← joined, List.getLast?_append_of_ne_nil _ nonempty]

theorem prefix_of_cut (head : (cut source).head? = some next) : next.data <+: source := by
  rcases List.head?_eq_some_iff.mp head with ⟨behind, split⟩
  have joined := flatMap_data_cut source
  rw [split, List.flatMap_cons] at joined
  exact ⟨_, joined⟩

theorem head?_of_cut (head : (cut source).head? = some next) :
    source.head? = next.data.head? := by
  have nonempty := data_ne_nil (isProper_of_mem_cut source next (List.mem_of_mem_head? head))
  rcases prefix_of_cut head with ⟨behind, joined⟩
  rw [← joined, List.head?_append_of_ne_nil _ nonempty]

theorem exists_literal_of_mark {slice : Bytes} (proper : (mark slice).IsProper) :
    ∃ byte, slice.getLast? = some byte ∧ IsLiteralByte byte := by
  rcases proper with ⟨byte, _, literal, rfl⟩ | rfl
  · exact ⟨byte, rfl, literal⟩
  · exact ⟨0x0a, rfl, lineFeed_isLiteral⟩

theorem head?_of_mark {slice : Bytes} (proper : (mark slice).IsProper) :
    slice.head? = some 0x0a ↔ slice = [0x0a] := by
  rcases proper with ⟨byte, _, _, rfl⟩ | rfl
  · simp
  · simp [Slice.lineBreak]

/-- A literal or a line break stands first exactly if the first piece is one. -/
theorem startsWithMark_iff (head : (cut second).head? = some next) :
    ((∃ byte ∈ second.head?, IsLiteralByte byte) ∨ Slice.lineBreak <+: second) ↔
      ¬Slice.IsRun next.data := by
  have proper := isProper_of_mem_cut second next (List.mem_of_mem_head? head)
  cases next with
  | mark slice =>
      refine iff_of_true ?_ (not_isRun_of_mark proper)
      rcases proper with ⟨byte, _, literal, rfl⟩ | rfl
      · exact Or.inl ⟨byte, head?_of_cut head, literal⟩
      · exact Or.inr (prefix_of_cut head)
  | run slice =>
      have isRun : Slice.IsRun slice := proper
      refine iff_of_false ?_ (not_not_intro isRun)
      rintro (⟨byte, byteFirst, literal⟩ | ⟨rest, rfl⟩)
      · rw [head?_of_cut head] at byteFirst
        exact isRun.2 byte (List.mem_of_mem_head? byteFirst) literal
      · cases head

/-- The last piece of some data may precede the first one of other data exactly if no word is torn
between them. -/
theorem mayPrecede_iff_isBoundary (last : (cut first).getLast? = some piece)
    (head : (cut second).head? = some next) :
    Slice.MayPrecede piece.data next.data ↔ Slice.IsBoundary first second := by
  have proper := isProper_of_mem_cut first piece (List.mem_of_getLast? last)
  cases piece with
  | mark slice =>
      rcases exists_literal_of_mark proper with ⟨byte, byteLast, literal⟩
      have ends : first.getLast? = some byte := (getLast?_of_cut last).trans byteLast
      refine iff_of_true (fun isRun => absurd isRun (not_isRun_of_mark proper)) ⟨?_, ?_⟩
      · exact Or.inr (Or.inr (Or.inl ⟨byte, ends, literal⟩))
      · rintro ⟨isReturn, _⟩
        rw [ends, Option.some.injEq] at isReturn
        exact carriageReturn_notLiteral (isReturn ▸ literal)
  | run slice =>
      have isRun : Slice.IsRun slice := proper
      have firstNonempty : first ≠ [] := by
        rintro rfl
        cases last
      have secondNonempty : second ≠ [] := by
        rintro rfl
        cases head
      have notLiteral : ¬∃ byte ∈ first.getLast?, IsLiteralByte byte := by
        rintro ⟨byte, byteLast, literal⟩
        rw [getLast?_of_cut last] at byteLast
        exact isRun.2 byte (List.mem_of_getLast? byteLast) literal
      have nextProper := isProper_of_mem_cut second next (List.mem_of_mem_head? head)
      have between : (first = [] ∨ second = [] ∨ (∃ byte ∈ first.getLast?, IsLiteralByte byte) ∨
          (∃ byte ∈ second.head?, IsLiteralByte byte) ∨ Slice.lineBreak <+: second) ↔
          ¬Slice.IsRun next.data := by
        rw [← startsWithMark_iff head]
        simp only [firstNonempty, secondNonempty, notLiteral, false_or]
      rw [Slice.IsBoundary, between, getLast?_of_cut last, head?_of_cut head]
      refine (forall_prop_of_true isRun).trans (and_congr_right fun notRun => ?_)
      cases next with
      | mark slice => rw [data, data, head?_of_mark nextProper]
      | run slice => exact absurd nextProper notRun

/-- Data put together is cut as its parts are exactly if no word is torn between them. -/
theorem cut_append_iff :
    cut (first ++ second) = cut first ++ cut second ↔ Slice.IsBoundary first second := by
  constructor
  · intro apart
    cases last : (cut first).getLast? with
    | none =>
        have nothing := flatMap_data_cut first
        rw [List.getLast?_eq_none_iff.mp last] at nothing
        exact ⟨Or.inl nothing.symm, by simp [← nothing]⟩
    | some piece =>
        cases head : (cut second).head? with
        | none =>
            have nothing := flatMap_data_cut second
            rw [List.head?_eq_none_iff.mp head] at nothing
            exact ⟨Or.inr (Or.inl nothing.symm), by simp [← nothing]⟩
        | some next =>
            have neighbours := neighbours_cut (first ++ second)
            rw [apart, List.map_append, List.isChain_append] at neighbours
            rw [← mayPrecede_iff_isBoundary last head]
            exact neighbours.2.2 _ (by simp [last]) _ (by simp [head])
  · intro boundary
    have proper : ∀ piece ∈ cut first ++ cut second, piece.IsProper := by
      intro piece pieceMem
      rcases List.mem_append.mp pieceMem with inFirst | inSecond
      · exact isProper_of_mem_cut first piece inFirst
      · exact isProper_of_mem_cut second piece inSecond
    have neighbours : ((cut first ++ cut second).map data).IsChain Slice.MayPrecede := by
      rw [List.map_append, List.isChain_append]
      refine ⟨neighbours_cut first, neighbours_cut second, ?_⟩
      intro slice sliceLast other otherHead
      rw [List.getLast?_map, Option.mem_def, Option.map_eq_some_iff] at sliceLast
      rw [List.head?_map, Option.mem_def, Option.map_eq_some_iff] at otherHead
      rcases sliceLast with ⟨piece, last, rfl⟩
      rcases otherHead with ⟨next, head, rfl⟩
      exact (mayPrecede_iff_isBoundary last head).mpr boundary
    have joined := cut_flatMap_data proper neighbours
    rwa [List.flatMap_append, flatMap_data_cut, flatMap_data_cut] at joined

variable {name : Text}

theorem text_moved (piece : Piece) (name : Text) (offset distance : Int) :
    piece.text name (offset + distance) =
      (piece.text name offset).mapError (.moved distance) := by
  cases piece with
  | mark slice => rfl
  | run slice =>
      simp only [text]
      cases Encoding.decodeNamed name slice with
      | ok text => rfl
      | error failure => cases failure <;> rfl

/-- Pieces that start further behind have the same words there. -/
theorem words_moved (name : Text) (start distance : Int) (pieces : List Piece) :
    words name (start + distance) pieces = (words name start pieces).moved distance := by
  induction pieces generalizing start with
  | nil => rfl
  | cons piece pieces inductionHypothesis =>
      rw [words, words, text_moved, Int.add_right_comm, inductionHypothesis]
      cases piece.text name start <;> rfl

theorem words_append (name : Text) (start : Int) (first second : List Piece) :
    words name start (first ++ second) = (words name start first).followedBy
      (words name (start + (first.flatMap data).length) second) := by
  induction first generalizing start with
  | nil =>
      rw [List.flatMap_nil, List.length_nil, Int.natCast_zero, Int.add_zero]
      rfl
  | cons piece pieces inductionHypothesis =>
      rw [List.cons_append, words, words, List.flatMap_cons, List.length_append, Int.natCast_add,
        ← Int.add_assoc]
      cases piece.text name start with
      | error failure => rfl
      | ok text => rw [inductionHypothesis, Partial.cons_followedBy]

end Piece

theorem Token.classifyAll_append_moved (distance : Int) (first second : List (Int × Text)) :
    classifyAll (first ++ second.map fun word => (word.1 + distance, word.2)) =
      classifyAll first ++ (classifyAll second).map (moved distance) := by
  rw [classifyAll, classifyAll, classifyAll, List.map_append, List.map_map, List.map_map]
  rfl

/-- Data that is taken apart between two words can be scanned part by part: the words of the whole
are those of the first part and then, moved behind it, those of the second one, which is not begun
if the scan of the first one fails. Tokens are put together like words. -/
theorem scan_composes_at_boundary {first second : Bytes} (name : Text)
    (boundary : Slice.IsBoundary first second) :
    scan (first ++ second) name =
        (scan first name).followedBy ((scan second name).moved first.length) ∧
      tokenize (first ++ second) name = (do
        let tokens ← tokenize first name
        let others ← (tokenize second name).mapError (.moved first.length)
        pure (tokens ++ others.map (.moved first.length))) := by
  have scanned : scan (first ++ second) name =
      (scan first name).followedBy ((scan second name).moved first.length) := by
    rw [scan, Piece.cut_append_iff.mpr boundary, Piece.words_append, Piece.flatMap_data_cut,
      Piece.words_moved]
    rfl
  refine ⟨scanned, ?_⟩
  rw [tokenize_eq, tokenize_eq, tokenize_eq, scanned]
  cases ended : (scan first name).failure with
  | some failure =>
      rw [Partial.followedBy_of_failure ended, ended]
      rfl
  | none =>
      rw [Partial.followedBy_of_complete ended]
      cases endedBehind : (scan second name).failure with
      | some failure =>
          simp only [Partial.moved, endedBehind]
          rfl
      | none =>
          simp only [Partial.moved, endedBehind, Token.classifyAll_append_moved]
          rfl

/-- A carriage return at the end of the first part does not belong to the line break that the second
one starts with; what is no text there is reported where it stands in the whole. -/
theorem scan_composes_at_boundary_of_return :
    Slice.IsBoundary [0x66, 0x0d] [0x0d, 0x0a, 0xff] ∧
      scan ([0x66, 0x0d] ++ [0x0d, 0x0a, 0xff]) "utf-8".toList =
        ⟨[(0, "f\r".toList), (2, "\r\n".toList)],
          some (.fault (.undecodable [0xff] 4 "utf-8".toList .invalidStartByte))⟩ ∧
      tokenize ([0x66, 0x0d] ++ [0x0d, 0x0a, 0xff]) "utf-8".toList =
        .error (.fault (.undecodable [0xff] 4 "utf-8".toList .invalidStartByte)) := by
  have boundary : Slice.IsBoundary [0x66, 0x0d] [0x0d, 0x0a, 0xff] := by
    refine ⟨?_, by decide⟩
    exact Or.inr (Or.inr (Or.inr (Or.inr ⟨[0xff], rfl⟩)))
  have composed := scan_composes_at_boundary "utf-8".toList boundary
  exact ⟨boundary, composed.1.trans rfl, composed.2.trans rfl⟩

end Lexeme
