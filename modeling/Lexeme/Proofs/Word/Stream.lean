import Lexeme.Proofs.Probe
import Lexeme.Proofs.Word.Order
import Lexeme.Source

/-!
# Streams of words

Words are classified as they come, and each one has to start behind the one before it. A stream in
which all do becomes a sequence of tokens, one for each word, and any other one is refused for the
first two neighbours that do not. The words of a scan pass in every encoding: a source has no tokens
only if the scan itself fails. Where an offset has no written form, neither an order that is
violated there can be told nor that a group misses the word.
-/

namespace Lexeme

namespace Token

section

variable {classify : Int → Text → Except Failure Token} {words : List (Int × Text)} {previous : Int}
variable {failure : Failure}

/-- What a word is refused for behind the last offset, if there is one: it does not start behind it,
or it is not classified by itself. -/
def IsRefusedFor (classify : Int → Text → Except Failure Token) (last : Option Int)
    (word : Int × Text) (failure : Failure) : Prop :=
  (∃ offset ∈ last, word.1 ≤ offset ∧ failure = (Fault.outOfOrder offset word.1).raised) ∨
    (∀ offset ∈ last, offset < word.1) ∧ classify word.1 word.2 = .error failure

theorem classifyAfter_cons_eq_error_iff {word : Int × Text} :
    classifyAfter classify previous (word :: words) = .error failure ↔
      IsRefusedFor classify (some previous) word failure ∨
        previous < word.1 ∧ (∃ token, classify word.1 word.2 = .ok token) ∧
          classifyAfter classify word.1 words = .error failure := by
  rw [classifyAfter, IsRefusedFor]
  split
  · next descends =>
      have notBehind : ¬previous < word.1 := by omega
      simp [descends, notBehind, eq_comm]
  · next ascends =>
      have behind : previous < word.1 := by omega
      simp [ascends, behind, Except.bind_eq_error_iff, pure, Except.pure]

theorem classifyEach_cons_eq_error_iff {word : Int × Text} :
    classifyEach classify (word :: words) = .error failure ↔
      IsRefusedFor classify none word failure ∨
        (∃ token, classify word.1 word.2 = .ok token) ∧
          classifyAfter classify word.1 words = .error failure := by
  rw [classifyEach, IsRefusedFor]
  simp [Except.bind_eq_error_iff, pure, Except.pure]

/-- The tokens of words behind a last offset, if there is one. -/
def classifyBehind (classify : Int → Text → Except Failure Token) :
    Option Int → List (Int × Text) → Except Failure (List Token)
  | none => classifyEach classify
  | some previous => classifyAfter classify previous

theorem classifyBehind_cons_eq_ok_iff {last : Option Int} {word : Int × Text}
    {tokens : List Token} :
    classifyBehind classify last (word :: words) = .ok tokens ↔
      (∀ offset ∈ last, offset < word.1) ∧ ∃ token others, classify word.1 word.2 = .ok token ∧
        classifyBehind classify (some word.1) words = .ok others ∧ tokens = token :: others := by
  cases last with
  | none => simp [classifyBehind, classifyEach_cons_eq_ok_iff]
  | some previous => simp [classifyBehind, classifyAfter_cons_eq_ok_iff]

theorem classifyBehind_cons_eq_error_iff {last : Option Int} {word : Int × Text} :
    classifyBehind classify last (word :: words) = .error failure ↔
      IsRefusedFor classify last word failure ∨ (∀ offset ∈ last, offset < word.1) ∧
        (∃ token, classify word.1 word.2 = .ok token) ∧
          classifyBehind classify (some word.1) words = .error failure := by
  cases last with
  | none => simp [classifyBehind, classifyEach_cons_eq_error_iff]
  | some previous => simp [classifyBehind, classifyAfter_cons_eq_error_iff]

/-- The offset of the last word, or else what was the last one before. -/
def lastOffset (last : Option Int) (words : List (Int × Text)) : Option Int :=
  (words.getLast?.map Prod.fst).or last

theorem lastOffset_cons (last : Option Int) (word : Int × Text) (words : List (Int × Text)) :
    lastOffset last (word :: words) = lastOffset (some word.1) words := by
  rw [lastOffset, lastOffset, List.getLast?_cons]
  cases words.getLast? <;> rfl

theorem classifyBehind_eq_error_iff {last : Option Int} :
    classifyBehind classify last words = .error failure ↔
      ∃ before bad behind, words = before ++ bad :: behind ∧
        (∃ tokens, classifyBehind classify last before = .ok tokens) ∧
        IsRefusedFor classify (lastOffset last before) bad failure := by
  have nothing (last : Option Int) : classifyBehind classify last [] = .ok [] := by
    cases last <;> rfl
  induction words generalizing last with
  | nil => simp [nothing]
  | cons word words inductionHypothesis =>
      rw [classifyBehind_cons_eq_error_iff]
      constructor
      · rintro (refused | ⟨ascends, ⟨token, classified⟩, failed⟩)
        · exact ⟨[], word, words, rfl, ⟨[], nothing last⟩, refused⟩
        · rcases inductionHypothesis.mp failed with
            ⟨before, bad, behind, rfl, ⟨tokens, good⟩, refused⟩
          refine ⟨word :: before, bad, behind, rfl, ⟨token :: tokens, ?_⟩, ?_⟩
          · exact classifyBehind_cons_eq_ok_iff.mpr
              ⟨ascends, token, tokens, classified, good, rfl⟩
          · rwa [lastOffset_cons]
      · rintro ⟨before, bad, behind, split, ⟨tokens, good⟩, refused⟩
        cases before with
        | nil =>
            cases split
            exact Or.inl refused
        | cons first before =>
            cases split
            rcases classifyBehind_cons_eq_ok_iff.mp good with
              ⟨ascends, token, others, classified, rest, _⟩
            rw [lastOffset_cons] at refused
            exact Or.inr ⟨ascends, ⟨token, classified⟩,
              inductionHypothesis.mpr ⟨before, bad, behind, rfl, ⟨others, rest⟩, refused⟩⟩

/-- Words are refused for the first one that is refused behind those before it. -/
theorem classifyEach_eq_error_iff :
    classifyEach classify words = .error failure ↔
      ∃ before bad behind, words = before ++ bad :: behind ∧
        (∃ tokens, classifyEach classify before = .ok tokens) ∧
        IsRefusedFor classify (before.getLast?.map Prod.fst) bad failure := by
  have refused := @classifyBehind_eq_error_iff classify words failure none
  simpa only [classifyBehind, lastOffset, Option.or_none] using refused

end

variable {words : List (Int × Text)} {previous next : Int × Text} {failure : Failure}

theorem classifyWords_eq_ok_iff {tokens : List Token} :
    classifyWords words = .ok tokens ↔
      (words.map Prod.fst).Pairwise (· < ·) ∧
        (∀ word ∈ words, classify word.1 word.2 = .ok (ofWord word.1 word.2)) ∧
        tokens = classifyAll words := by
  have only : ∀ (word : Int × Text) (token : Token), classify word.1 word.2 = .ok token →
      token = ofWord word.1 word.2 := fun _ _ => eq_ofWord_of_classify
  rw [classifyWords, classifyEach_eq_ok_iff, Except.mapM_eq_ok_iff_of_known only]
  rfl

/-- Whether two words are the first neighbours in a stream of which the second one does not start
behind the first one. -/
def FirstDescent (words : List (Int × Text)) (previous next : Int × Text) : Prop :=
  ∃ before behind, words = before ++ previous :: next :: behind ∧
    (before ++ [previous]).IsChain (fun word other => word.1 < other.1) ∧ next.1 ≤ previous.1

/-- Where all offsets can be told, words are refused for their first descent. -/
theorem classifyWords_eq_error_iff (writable : ∀ word ∈ words, Numeral.IsWritable word.1) :
    classifyWords words = .error failure ↔
      ∃ previous next, FirstDescent words previous next ∧
        failure = .fault (.outOfOrder previous.1 next.1) := by
  have tellable {previous next : Int × Text} (previousMem : previous ∈ words)
      (nextMem : next ∈ words) :
      (Fault.outOfOrder previous.1 next.1).raised = .fault (.outOfOrder previous.1 next.1) := by
    apply Fault.raised_of_isTellable
    simp [Fault.IsTellable, Fault.shown, writable _ previousMem, writable _ nextMem]
  rw [classifyWords, classifyEach_eq_error_iff]
  constructor
  · rintro ⟨before, bad, behind, rfl, ⟨tokens, good⟩, ⟨offset, isLast, descends, rfl⟩ | ⟨_, failed⟩⟩
    · rcases Option.map_eq_some_iff.mp isLast with ⟨previous, last, rfl⟩
      rcases List.getLast?_eq_some_iff.mp last with ⟨earlier, rfl⟩
      have increasing := (classifyEach_eq_ok_iff.mp good).1
      rw [← List.isChain_iff_pairwise, List.isChain_map] at increasing
      exact ⟨previous, bad, ⟨earlier, behind, by simp, increasing, descends⟩,
        tellable (by simp) (by simp)⟩
    · rw [classify_of_isWritable (writable bad (by simp))] at failed
      contradiction
  · rintro ⟨previous, next, ⟨before, behind, rfl, ascends, descends⟩, rfl⟩
    refine ⟨before ++ [previous], next, behind, by simp, ⟨classifyAll (before ++ [previous]), ?_⟩,
      Or.inl ⟨previous.1, by simp, descends, (tellable (by simp) (by simp)).symm⟩⟩
    apply classifyWords_eq_ok_iff.mpr
    refine ⟨?_, ?_, rfl⟩
    · rw [← List.isChain_iff_pairwise, List.isChain_map]
      exact ascends
    · intro word wordMem
      exact classify_of_isWritable (writable word (by simp at wordMem ⊢; tauto)) word.2

end Token

namespace Piece

variable {name : Text} {start previous offset : Int}

theorem text_ne_outOfOrder (piece : Piece) :
    piece.text name start ≠ .error (.fault (.outOfOrder previous offset)) := by
  cases piece with
  | mark slice => simp [text]
  | run slice =>
      rw [text]
      split <;> simp

/-- No scan fails for the order of its words. -/
theorem failure_words_ne_outOfOrder (pieces : List Piece) :
    (words name start pieces).failure ≠ some (.fault (.outOfOrder previous offset)) := by
  induction pieces generalizing start with
  | nil => exact nofun
  | cons piece pieces inductionHypothesis =>
      rw [words]
      cases read : piece.text name start with
      | error failure =>
          rintro ⟨⟩
          exact piece.text_ne_outOfOrder read
      | ok text => exact inductionHypothesis

/-- If all pieces are words, the first one starts where the pieces do. -/
theorem exists_items_of_complete {pieces : List Piece} (nonempty : pieces ≠ [])
    (complete : (words name start pieces).failure = none) :
    ∃ text rest, (words name start pieces).items = (start, text) :: rest := by
  cases pieces with
  | nil => exact absurd rfl nonempty
  | cons piece pieces =>
      rw [words] at complete ⊢
      cases read : piece.text name start with
      | error failure =>
          rw [read] at complete
          contradiction
      | ok text => exact ⟨text, _, rfl⟩

end Piece

theorem exists_first_of_tokenize {source : Bytes} {name : Text} {tokens : List Token}
    (tokenized : tokenize source name = .ok tokens) (nonempty : source ≠ []) :
    ∃ category rest, tokens = ⟨0, category⟩ :: rest := by
  rcases tokenize_eq_ok_iff.mp tokenized with ⟨complete, rfl⟩
  have cutNonempty : Piece.cut source ≠ [] := by
    intro empty
    apply nonempty
    rw [← Piece.flatMap_data_cut source, empty, List.flatMap_nil]
  rcases Piece.exists_items_of_complete cutNonempty complete with ⟨text, rest, items⟩
  rw [scan, items]
  exact ⟨_, _, rfl⟩

/-- The places in data in memory can be told, so the words of a scan are classified by asking the
groups for each of them. -/
theorem classify_of_mem_scan {source : Bytes}
    (addressable : (source.length : Int) ≤ Source.maxIndex) (name : Text) :
    ∀ word ∈ (scan source name).items,
      Token.classify word.1 word.2 = .ok (Token.ofWord word.1 word.2) := by
  intro word wordMem
  have inside := (offsets_scan source name).1 word wordMem
  rw [Source.maxIndex] at addressable
  exact Token.classify_of_isWritable
    (Numeral.isWritable_of_le (by omega) (by omega)) word.2

theorem tokenize_eq_classifyPartial {source : Bytes}
    (addressable : (source.length : Int) ≤ Source.maxIndex) (name : Text) :
    tokenize source name = Token.classifyPartial Token.classify (scan source name) := by
  have alike : Token.classifyEach Token.classify (scan source name).items =
      Token.classifyEach (fun offset word => .ok (Token.ofWord offset word))
        (scan source name).items :=
    Token.classifyEach_congr (classify_of_mem_scan addressable name)
  rw [tokenize, Token.classifyPartial, Token.classifyPartial, alike]

/-- Words become one token each exactly if all their offsets increase and each of them is classified
by itself, as it is wherever the offset has a written form; otherwise they are refused for the first
one that is not, and in particular for the first two neighbours that do not increase, with the
offsets of these. The words of a scan, in any encoding, are never refused: either the tokens of a
source increase, the first one stands at its start and all stand inside it, or there are none for
the reason that the scan gives. -/
theorem increasing_words_are_classified (words : List (Int × Text)) (source : Bytes) (name : Text) :
    (∀ tokens, Token.classifyWords words = .ok tokens ↔
      (words.map Prod.fst).Pairwise (· < ·) ∧
        (∀ word ∈ words, Token.classify word.1 word.2 = .ok (Token.ofWord word.1 word.2)) ∧
        tokens = words.map fun word => Token.ofWord word.1 word.2) ∧
    (∀ failure, Token.classifyWords words = .error failure ↔
      ∃ before bad behind, words = before ++ bad :: behind ∧
        (∃ tokens, Token.classifyWords before = .ok tokens) ∧
        Token.IsRefusedFor Token.classify (before.getLast?.map Prod.fst) bad failure) ∧
    (∀ word ∈ words, Numeral.IsWritable word.1 →
      Token.classify word.1 word.2 = .ok (Token.ofWord word.1 word.2)) ∧
    ((∀ word ∈ words, Numeral.IsWritable word.1) →
      ∀ failure, Token.classifyWords words = .error failure ↔
        ∃ previous next, Token.FirstDescent words previous next ∧
          failure = .fault (.outOfOrder previous.1 next.1)) ∧
    (∀ previous offset, (Fault.outOfOrder previous offset).diagnostic.subject =
        .order (.int previous) ∧
      (Fault.outOfOrder previous offset).diagnostic.offset = .int offset) ∧
    ((source.length : Int) ≤ Source.maxIndex →
      (∃ tokens, Token.classifyWords (scan source name).items = .ok tokens) ∧
      tokenize source name = Token.classifyPartial Token.classify (scan source name)) ∧
    (∀ previous offset, tokenize source name ≠ .error (.fault (.outOfOrder previous offset))) ∧
    (∀ failure, tokenize source name = .error failure ↔
      (scan source name).failure = some failure) ∧
    ∀ tokens, tokenize source name = .ok tokens →
      tokens.Pairwise (·.offset < ·.offset) ∧
        (source ≠ [] → ∃ category rest, tokens = ⟨0, category⟩ :: rest) ∧
        ∀ token ∈ tokens, 0 ≤ token.offset ∧ token.offset < source.length := by
  have failed : ∀ failure, tokenize source name = .error failure ↔
      (scan source name).failure = some failure := by
    intro failure
    rw [tokenize_eq]
    cases (scan source name).failure <;> simp
  refine ⟨?_, ?_, ?_, ?_, fun _ _ => ⟨rfl, rfl⟩, ?_, ?_, failed, ?_⟩
  · intro tokens
    exact Token.classifyWords_eq_ok_iff
  · intro failure
    exact Token.classifyEach_eq_error_iff
  · intro word _ writable
    exact Token.classify_of_isWritable writable word.2
  · intro writable failure
    exact Token.classifyWords_eq_error_iff writable
  · intro addressable
    have classified := Token.classifyWords_eq_ok_iff.mpr
      ⟨(offsets_scan source name).2, classify_of_mem_scan addressable name, rfl⟩
    exact ⟨⟨_, classified⟩, tokenize_eq_classifyPartial addressable name⟩
  · intro previous offset
    rw [Ne, failed]
    exact Piece.failure_words_ne_outOfOrder (Piece.cut source)
  · intro tokens tokenized
    rcases offsets_of_tokenize tokenized with ⟨inside, increasing⟩
    exact ⟨increasing, exists_first_of_tokenize tokenized, inside⟩

/-- A word that starts where the one before it does is refused, whatever comes behind it; a keyword
and the line break that is cut off behind it are tokens. -/
theorem increasing_words_are_classified_of_repeat :
    (∀ word ∈ [(0, "if".toList), (2, " ".toList), (2, "x".toList), (1, "y".toList)],
        Numeral.IsWritable word.1) ∧
      Token.classifyWords [(0, "if".toList), (2, " ".toList), (2, "x".toList), (1, "y".toList)] =
        .error (.fault (.outOfOrder 2 2)) ∧
      (([0x69, 0x66, 0x0d, 0x0a] : Bytes).length : Int) ≤ Source.maxIndex ∧
      (∃ tokens, Token.classifyWords (scan [0x69, 0x66, 0x0d, 0x0a] "utf8".toList).items =
        .ok tokens) ∧
      tokenize [0x69, 0x66, 0x0d, 0x0a] "utf8".toList =
        .ok [⟨0, .conditional⟩, ⟨2, .newline⟩] ∧
      ([⟨0, .conditional⟩, ⟨2, .newline⟩] : List Token).Pairwise (·.offset < ·.offset) ∧
      (∃ category rest, ([⟨0, .conditional⟩, ⟨2, .newline⟩] : List Token) =
        ⟨0, category⟩ :: rest) ∧
      ∀ token ∈ ([⟨0, .conditional⟩, ⟨2, .newline⟩] : List Token),
        0 ≤ token.offset ∧ token.offset < 4 := by
  have writable : ∀ word ∈ [((0 : Int), "if".toList), (2, " ".toList), (2, "x".toList),
      (1, "y".toList)], Numeral.IsWritable word.1 := by
    decide
  have descent : Token.FirstDescent
      [(0, "if".toList), (2, " ".toList), (2, "x".toList), (1, "y".toList)]
      (2, " ".toList) (2, "x".toList) :=
    ⟨[(0, "if".toList)], [(1, "y".toList)], rfl, .cons_cons (by decide) (.singleton _), by decide⟩
  have addressable : (([0x69, 0x66, 0x0d, 0x0a] : Bytes).length : Int) ≤ Source.maxIndex := by
    decide
  have tokenized : tokenize [0x69, 0x66, 0x0d, 0x0a] "utf8".toList =
      .ok [⟨0, .conditional⟩, ⟨2, .newline⟩] := rfl
  rcases increasing_words_are_classified
      [(0, "if".toList), (2, " ".toList), (2, "x".toList), (1, "y".toList)]
      [0x69, 0x66, 0x0d, 0x0a] "utf8".toList with
    ⟨_, _, _, refused, _, scanned, _, _, sound⟩
  rcases sound _ tokenized with ⟨increasing, first, inside⟩
  exact ⟨writable, (refused writable _).mpr ⟨_, _, descent, rfl⟩, addressable,
    (scanned addressable).1, tokenized, increasing, first (by decide), inside⟩

/-- A single word, whose offset increases as any does, is refused at the least offset without a
written form. -/
theorem unwritable_offset_breaks_off :
    ([((10 : Int) ^ Numeral.maxDigits, ['x'])].map Prod.fst).Pairwise (· < ·) ∧
      Token.classifyWords [(10 ^ Numeral.maxDigits, ['x'])] = .error .numberTooLong := by
  refine ⟨List.pairwise_singleton _ _, ?_⟩
  apply Token.classifyEach_eq_error_iff.mpr
  refine ⟨[], _, [], rfl, ⟨[], rfl⟩, Or.inr ⟨nofun, ?_⟩⟩
  exact Token.classify_eq_error_iff.mpr ⟨Numeral.not_isWritable_pow, by decide, rfl⟩

end Lexeme
