import Lexeme.Proofs.Except
import Lexeme.Proofs.Word.Scan

/-!
# The order of words

Words are classified exactly if their offsets increase. Those of a scan always do, so tokenizing
fails only where the scan does.
-/

namespace Lexeme

namespace Token

/-- The tokens of words in a source. -/
def classifyAll (words : List (Int × Text)) : List Token :=
  words.map fun word => ofWord word.1 word.2

section

variable {classify : Int → Text → Except Failure Token} {words : List (Int × Text)} {previous : Int}

/-- One step: a word is compared with the offset before it, then it is classified by itself, and
then the rest is classified behind it. -/
theorem classifyAfter_cons_eq_ok_iff {word : Int × Text} {tokens : List Token} :
    classifyAfter classify previous (word :: words) = .ok tokens ↔
      previous < word.1 ∧ ∃ token others, classify word.1 word.2 = .ok token ∧
        classifyAfter classify word.1 words = .ok others ∧ tokens = token :: others := by
  rw [classifyAfter]
  split
  · next descends =>
      refine iff_of_false nofun ?_
      rintro ⟨ascends, _⟩
      omega
  · next ascends =>
      simp only [Except.bind_eq_ok_iff, pure, Except.pure, Except.ok.injEq]
      constructor
      · rintro ⟨token, classified, others, rest, rfl⟩
        exact ⟨by omega, token, others, classified, rest, rfl⟩
      · rintro ⟨_, token, others, classified, rest, rfl⟩
        exact ⟨token, classified, others, rest, rfl⟩

theorem classifyEach_cons_eq_ok_iff {word : Int × Text} {tokens : List Token} :
    classifyEach classify (word :: words) = .ok tokens ↔
      ∃ token others, classify word.1 word.2 = .ok token ∧
        classifyAfter classify word.1 words = .ok others ∧ tokens = token :: others := by
  rw [classifyEach]
  simp only [Except.bind_eq_ok_iff, pure, Except.pure, Except.ok.injEq]
  constructor
  · rintro ⟨token, classified, others, rest, rfl⟩
    exact ⟨token, others, classified, rest, rfl⟩
  · rintro ⟨token, others, classified, rest, rfl⟩
    exact ⟨token, classified, others, rest, rfl⟩

/-- Behind some offset words are classified exactly if the offsets increase from there on and each
word is classified by itself. -/
theorem classifyAfter_eq_ok_iff {tokens : List Token} :
    classifyAfter classify previous words = .ok tokens ↔
      (previous :: words.map Prod.fst).IsChain (· < ·) ∧
        words.mapM (fun word => classify word.1 word.2) = .ok tokens := by
  induction words generalizing previous tokens with
  | nil => simp [classifyAfter, pure, Except.pure]
  | cons word words inductionHypothesis =>
      rw [List.map_cons, List.isChain_cons_cons, Except.mapM_cons_eq_ok_iff,
        classifyAfter_cons_eq_ok_iff]
      simp only [inductionHypothesis]
      constructor
      · rintro ⟨ascends, token, others, classified, ⟨increasing, rest⟩, rfl⟩
        exact ⟨⟨ascends, increasing⟩, token, others, classified, rest, rfl⟩
      · rintro ⟨⟨ascends, increasing⟩, token, others, classified, rest, rfl⟩
        exact ⟨ascends, token, others, classified, ⟨increasing, rest⟩, rfl⟩

/-- Words are classified exactly if all their offsets increase, though only neighbours are compared,
and each word is classified by itself. -/
theorem classifyEach_eq_ok_iff {tokens : List Token} :
    classifyEach classify words = .ok tokens ↔
      (words.map Prod.fst).Pairwise (· < ·) ∧
        words.mapM (fun word => classify word.1 word.2) = .ok tokens := by
  rw [← List.isChain_iff_pairwise]
  cases words with
  | nil => simp [classifyEach, pure, Except.pure]
  | cons word words =>
      rw [List.map_cons, Except.mapM_cons_eq_ok_iff, classifyEach_cons_eq_ok_iff]
      simp only [classifyAfter_eq_ok_iff]
      constructor
      · rintro ⟨token, others, classified, ⟨increasing, rest⟩, rfl⟩
        exact ⟨increasing, token, others, classified, rest, rfl⟩
      · rintro ⟨increasing, token, others, classified, rest, rfl⟩
        exact ⟨token, others, classified, ⟨increasing, rest⟩, rfl⟩

/-- The words of a source are all classified if their offsets increase. -/
theorem classifyEach_ofWord_eq_ok_iff {tokens : List Token} :
    classifyEach (fun offset word => .ok (ofWord offset word)) words = .ok tokens ↔
      (words.map Prod.fst).Pairwise (· < ·) ∧ tokens = classifyAll words := by
  have each : words.mapM (fun word => Except.ok (ε := Failure) (ofWord word.1 word.2)) =
      .ok (classifyAll words) :=
    List.mapM_pure
  rw [classifyEach_eq_ok_iff, each, Except.ok.injEq, eq_comm (a := tokens)]

section

variable {other : Int → Text → Except Failure Token}

theorem classifyAfter_congr
    (alike : ∀ word ∈ words, classify word.1 word.2 = other word.1 word.2) (previous : Int) :
    classifyAfter classify previous words = classifyAfter other previous words := by
  induction words generalizing previous with
  | nil => rfl
  | cons word words inductionHypothesis =>
      rw [List.forall_mem_cons] at alike
      rw [classifyAfter, classifyAfter, alike.1, inductionHypothesis alike.2]

/-- Words that are classified alike by themselves are classified alike in a row. -/
theorem classifyEach_congr
    (alike : ∀ word ∈ words, classify word.1 word.2 = other word.1 word.2) :
    classifyEach classify words = classifyEach other words := by
  cases words with
  | nil => rfl
  | cons word words =>
      rw [List.forall_mem_cons] at alike
      rw [classifyEach, classifyEach, alike.1, classifyAfter_congr alike.2]

end

end

theorem map_offset_classifyAll (words : List (Int × Text)) :
    (classifyAll words).map offset = words.map Prod.fst := by
  rw [classifyAll, List.map_map]
  rfl

end Token

theorem offsets_scan (source : Bytes) (name : Text) :
    (∀ word ∈ (scan source name).items, 0 ≤ word.1 ∧ word.1 < source.length) ∧
      ((scan source name).items.map Prod.fst).Pairwise (· < ·) := by
  have offsets := Piece.offsets_words (Piece.isProper_of_mem_cut source) name 0
  rwa [Piece.flatMap_data_cut, Int.zero_add] at offsets

/-- The tokens of a source are those of its words, unless a word is missing. -/
theorem tokenize_eq (source : Bytes) (name : Text) :
    tokenize source name = match (scan source name).failure with
      | some failure => .error failure
      | none => .ok (Token.classifyAll (scan source name).items) := by
  have classified := Token.classifyEach_ofWord_eq_ok_iff.mpr ⟨(offsets_scan source name).2, rfl⟩
  rw [tokenize, Token.classifyPartial, classified]
  cases (scan source name).failure <;> rfl

theorem tokenize_eq_ok_iff {source : Bytes} {name : Text} {tokens : List Token} :
    tokenize source name = .ok tokens ↔
      (scan source name).failure = none ∧ tokens = Token.classifyAll (scan source name).items := by
  rw [tokenize_eq]
  cases (scan source name).failure <;> simp [eq_comm]

/-- The tokens of a source start inside it, each behind the one before. -/
theorem offsets_of_tokenize {source : Bytes} {name : Text} {tokens : List Token}
    (tokenized : tokenize source name = .ok tokens) :
    (∀ token ∈ tokens, 0 ≤ token.offset ∧ token.offset < source.length) ∧
      tokens.Pairwise (·.offset < ·.offset) := by
  rcases tokenize_eq_ok_iff.mp tokenized with ⟨_, rfl⟩
  have offsets := offsets_scan source name
  refine ⟨?_, ?_⟩
  · intro token tokenMem
    rcases List.mem_map.mp tokenMem with ⟨word, wordMem, rfl⟩
    exact offsets.1 word wordMem
  · rw [← Token.map_offset_classifyAll, List.pairwise_map] at offsets
    exact offsets.2

end Lexeme
