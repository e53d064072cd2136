import Lexeme.Dump
import Lexeme.Proofs.Encoding.Name
import Lexeme.Proofs.Locate.Lookup

/-!
# Failures that the data is to blame for

Reading the texts of tokens can fail in ways that have nothing to do with the data: a handle can
refuse an offset, and the name of an encoding can be useless. With an encoding to decode with and
offsets that a handle can go to, all failures are faults.
-/

namespace Lexeme

def Failure.IsFault (failure : Failure) : Prop :=
  ∃ fault, failure = .fault fault

/-- Whether a handle can go to where a token starts. -/
def Token.IsAddressable (token : Token) : Prop :=
  0 ≤ token.offset ∧ token.offset ≤ Source.maxIndex

theorem Token.IsPackable.isAddressable {token : Token} (packable : token.IsPackable) :
    token.IsAddressable := by
  have packableOffset := packable.2
  simp only [maxOffset] at packableOffset
  refine ⟨packable.1, ?_⟩
  simp only [Source.maxIndex]
  omega

theorem Source.isWritable_of_le {offset : Int} (nonneg : 0 ≤ offset)
    (addressable : offset ≤ Source.maxIndex) : Numeral.IsWritable offset := by
  rw [Source.maxIndex] at addressable
  exact Numeral.isWritable_of_le (by omega) (by omega)

theorem Token.IsAddressable.isWritable {token : Token} (addressable : token.IsAddressable) :
    Numeral.IsWritable token.offset :=
  Source.isWritable_of_le addressable.1 addressable.2

theorem Fault.isTellable_tokenAbsent {token : Token} :
    (Fault.tokenAbsent token).IsTellable ↔ Numeral.IsWritable token.offset := by
  simp [IsTellable, shown]

variable {encoding : Encoding} {name : Text} {contents : Bytes} {failure : Failure}
variable {token : Token} {tokens : List Token}

namespace Mark

variable {mark : Mark} {stop : Option Int}

theorem isFault_of_span (nonneg : 0 ≤ mark.offset) (addressable : mark.offset ≤ Source.maxIndex)
    (stops : ∀ offset ∈ stop, 0 ≤ offset ∧ offset ≤ Source.maxIndex)
    (failed : mark.span stop contents = .error failure) : failure.IsFault := by
  rw [span, Source.seekRefusal?_eq_none nonneg addressable] at failed
  cases stop with
  | none =>
      simp only [spanFrom] at failed
      split at failed
      · exact ⟨_, (Except.error.inj failed).symm⟩
      · contradiction
  | some stop =>
      have inside := stops stop rfl
      simp only [spanFrom] at failed
      split at failed
      · have tellable : (Fault.spanNegative mark stop).IsTellable := by
          simp [Fault.IsTellable, Fault.shown, Source.isWritable_of_le nonneg addressable,
            Source.isWritable_of_le inside.1 inside.2]
        rw [Fault.raised_of_isTellable tellable] at failed
        exact ⟨_, (Except.error.inj failed).symm⟩
      · rw [if_neg (by omega)] at failed
        split at failed
        · exact ⟨_, (Except.error.inj failed).symm⟩
        · contradiction

theorem isFault_of_decodeSpan (named : encoding.HasName name) {data : Bytes}
    (failed : mark.decodeSpan name data = .error failure) : failure.IsFault := by
  rw [decodeSpan, Encoding.decodeNamed_eq named] at failed
  cases decoded : encoding.decode data with
  | ok text =>
      rw [decoded] at failed
      contradiction
  | error malformed =>
      rw [decoded] at failed
      exact ⟨_, (Except.error.inj failed).symm⟩

theorem isFault_of_textIn (named : encoding.HasName name) (nonneg : 0 ≤ mark.offset)
    (addressable : mark.offset ≤ Source.maxIndex)
    (stops : ∀ offset ∈ stop, 0 ≤ offset ∧ offset ≤ Source.maxIndex)
    (failed : mark.textIn stop name contents = .error failure) : failure.IsFault := by
  rcases Except.bind_eq_error_iff.mp failed with noBytes | ⟨data, _, malformed⟩
  · exact isFault_of_span nonneg addressable stops noBytes
  · exact isFault_of_decodeSpan named malformed

end Mark

theorem isFault_of_token (named : encoding.HasName name) (addressable : token.IsAddressable)
    {next : Option Token} (nextAddressable : ∀ other ∈ next, other.IsAddressable)
    (failed : (toMark token).textIn (nextOffset next) name contents = .error failure) :
    failure.IsFault := by
  apply Mark.isFault_of_textIn named addressable.1 addressable.2 ?_ failed
  intro offset offsetNext
  rcases Option.map_eq_some_iff.mp offsetNext with ⟨other, isNext, rfl⟩
  exact nextAddressable other isNext

theorem isFault_of_pack (addressable : token.IsAddressable)
    (refused : token.pack = .error failure) : failure.IsFault := by
  rcases Token.pack_eq_error_iff.mp refused with ⟨_, rfl⟩
  have tellable : (Fault.offsetOutOfRange token).IsTellable := by
    simpa [Fault.IsTellable, Fault.shown] using addressable.isWritable
  exact ⟨_, Fault.raised_of_isTellable tellable⟩

theorem isFault_of_encode (addressable : ∀ token ∈ tokens, token.IsAddressable)
    (refused : TokenFile.encode tokens = .error failure) : failure.IsFault := by
  rcases Except.bind_eq_error_iff.mp refused with notPacked | ⟨_, _, impossible⟩
  · rcases Except.mapM_eq_error_iff.mp notPacked with ⟨before, bad, after, rfl, _, badRefused⟩
    exact isFault_of_pack (addressable bad (by simp)) badRefused
  · contradiction

namespace Source

variable {source : Source}

/-- Whether each token of a sequence has a text in some contents. -/
def IsReadable (name : Text) (contents : Bytes) (tokens : List Token) : Prop :=
  ∃ texts : List Text, readings name contents tokens = texts.map .ok

theorem isReadable_nil : IsReadable name contents [] :=
  ⟨[], rfl⟩

theorem isReadable_cons_iff :
    IsReadable name contents (token :: tokens) ↔
      (∃ text, (toMark token).textIn (nextOffset tokens.head?) name contents = .ok text) ∧
        IsReadable name contents tokens := by
  constructor
  · rintro ⟨texts, read⟩
    cases texts with
    | nil => contradiction
    | cons text texts =>
        rw [readings, List.map_cons, List.cons.injEq] at read
        exact ⟨⟨text, read.1⟩, texts, read.2⟩
  · rintro ⟨⟨text, readFirst⟩, texts, readRest⟩
    exact ⟨text :: texts, by rw [readings, readFirst, readRest, List.map_cons]⟩

/-- Where reading texts in order stops, it is for the failure of one of the tokens. -/
theorem isFault_of_texts (named : encoding.HasName name)
    (addressable : ∀ token ∈ tokens, token.IsAddressable)
    (stopped : (source.texts name tokens).1.failure = some failure) : failure.IsFault := by
  induction tokens with
  | nil => contradiction
  | cons token rest inductionHypothesis =>
      rw [List.forall_mem_cons] at addressable
      simp only [texts, readSpan_eq] at stopped
      split at stopped
      · next failed =>
          cases stopped
          apply isFault_of_token named addressable.1 ?_ (Prod.mk.inj failed).1
          intro other otherHead
          exact addressable.2 other (List.mem_of_mem_head? otherHead)
      · next read =>
          rw [← (Prod.mk.inj read).2] at stopped
          exact inductionHypothesis addressable.2 stopped

theorem isFault_of_packedText (named : encoding.HasName name) (packable : token.IsPackable)
    (allPackable : ∀ other ∈ tokens, other.IsPackable)
    (failed : (source.packedText token (tokens.map Token.record) name).1 = .error failure) :
    failure.IsFault := by
  simp only [packedText, Token.pack_of_isPackable packable, recordOffset_map_record allPackable,
    readSpan_eq, Failure.absent_toMark] at failed
  split at failed
  · apply isFault_of_token named packable.isAddressable ?_ failed
    intro other otherNext
    exact (allPackable other (List.mem_of_getElem? otherNext)).isAddressable
  · have tellable := Fault.isTellable_tokenAbsent.mpr packable.isWritable
    rw [Fault.raised_of_isTellable tellable] at failed
    exact ⟨_, (Except.error.inj failed).symm⟩

end Source

namespace Dump

variable {source : Source}

/-- An offset that cannot be written cannot be packed, either, and that cannot be told. -/
theorem ofMark_toMark (token : Token) (text : Option Text) :
    Row.ofMark (toMark token) text = token.pack.map fun record => ⟨token, record, text⟩ := by
  by_cases writable : Numeral.IsWritable token.offset
  · exact if_pos writable
  · rw [Token.pack_of_not_isWritable writable]
    exact if_neg writable

theorem rowsWithTexts_cons (token : Token) (rest : List Token) :
    rowsWithTexts name source (token :: rest) =
      match (toMark token).textIn (nextOffset rest.head?) name source.contents with
      | .error failure => (.failed failure, source)
      | .ok text =>
        match token.pack with
        | .error failure => (.failed failure, source)
        | .ok record =>
          ((rowsWithTexts name source rest).1.cons ⟨token, record, some text⟩,
            (rowsWithTexts name source rest).2) := by
  rw [rowsWithTexts, Source.readSpan_eq]
  cases (toMark token).textIn (nextOffset rest.head?) name source.contents with
  | error failure => rfl
  | ok text =>
      simp only [ofMark_toMark]
      cases token.pack <;> rfl

/-- A dump with texts comes to its end if each token has a text and a record. -/
theorem failure_rowsWithTexts_eq_none_iff :
    (rowsWithTexts name source tokens).1.failure = none ↔
      Source.IsReadable name source.contents tokens ∧ ∀ token ∈ tokens, token.IsPackable := by
  induction tokens with
  | nil => simp [rowsWithTexts, Partial.done, Source.isReadable_nil]
  | cons token rest inductionHypothesis =>
      rw [Source.isReadable_cons_iff, List.forall_mem_cons, rowsWithTexts_cons]
      cases (toMark token).textIn (nextOffset rest.head?) name source.contents with
      | error failure => simp [Partial.failed]
      | ok text =>
          cases packed : token.pack with
          | error fault =>
              have notPackable : ¬token.IsPackable := by
                intro packable
                rw [Token.pack_of_isPackable packable] at packed
                contradiction
              simp [Partial.failed, notPackable]
          | ok record =>
              have packable := (Token.pack_eq_ok_iff.mp packed).1
              simp only [Partial.failure_cons, inductionHypothesis, packable]
              simp

theorem isFault_of_rowsWithTexts (named : encoding.HasName name)
    (addressable : ∀ token ∈ tokens, token.IsAddressable)
    (stopped : (rowsWithTexts name source tokens).1.failure = some failure) :
    failure.IsFault := by
  induction tokens with
  | nil => contradiction
  | cons token rest inductionHypothesis =>
      rw [List.forall_mem_cons] at addressable
      rw [rowsWithTexts_cons] at stopped
      cases read : (toMark token).textIn (nextOffset rest.head?) name source.contents with
      | error reason =>
          rw [read] at stopped
          cases stopped
          apply isFault_of_token named addressable.1 ?_ read
          intro other otherHead
          exact addressable.2 other (List.mem_of_mem_head? otherHead)
      | ok text =>
          rw [read] at stopped
          cases packed : token.pack with
          | error fault =>
              rw [packed] at stopped
              cases stopped
              exact isFault_of_pack addressable.1 packed
          | ok record =>
              rw [packed] at stopped
              exact inductionHypothesis addressable.2 stopped

/-- A dump without texts needs records only. -/
theorem failure_bareRows_eq_none (packable : ∀ token ∈ tokens, token.IsPackable) :
    (bareRows tokens).failure = none := by
  induction tokens with
  | nil => rfl
  | cons token rest inductionHypothesis =>
      rw [List.forall_mem_cons] at packable
      rw [bareRows, ofMark_toMark, Token.pack_of_isPackable packable.1]
      exact inductionHypothesis packable.2

end Dump

end Lexeme
