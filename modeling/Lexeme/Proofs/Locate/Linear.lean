import Lexeme.Proofs.Locate.Failure
import Mathlib.Algebra.Group.Int.Defs

/-!
# Looking up token by token

In a sequence with increasing offsets the binary search for a token does what going through the
sequence does. A token that is there has the bytes up to the next one's offset for its text, or all
that is left if it is the last, unless the contents end too early for that. So the texts of all
members, looked up or read in order, are those of slices of the contents that follow each other.
-/

namespace Lexeme

variable {encoding : Encoding} {name : Text} {contents : Bytes}
variable {token : Token} {tokens : List Token}

/-- Whether a fault is about where the span of a mark starts and ends. -/
inductive Fault.ConcernsSpan : Fault → Prop
  | lastSpanEmpty (mark : Mark) : ConcernsSpan (.lastSpanEmpty mark)
  | spanNegative (mark : Mark) (stop : Int) : ConcernsSpan (.spanNegative mark stop)
  | spanCutShort (mark : Mark) (stop : Int) (available : Nat) :
      ConcernsSpan (.spanCutShort mark stop available)

namespace Partial

variable {α β : Type}

/-- The results of some computations in order, up to the first one that fails. -/
def ofResults : List (α × Except Failure β) → Partial (α × β)
  | [] => done
  | (_, .error failure) :: _ => failed failure
  | (item, .ok result) :: rest => (ofResults rest).cons (item, result)

end Partial

namespace Mark

theorem decodeSpan_eq (named : encoding.HasName name) (mark : Mark) (data : Bytes) :
    mark.decodeSpan name data = (encoding.decode data).mapError fun malformed =>
      .fault (.undecodable data mark.offset name malformed.defect) := by
  rw [decodeSpan, Encoding.decodeNamed_eq named]
  cases encoding.decode data <;> rfl

end Mark

namespace Token

/-- Why the contents end before a token's span does, if they do. -/
def shortage? (token : Token) (next : Option Token) (contents : Bytes) : Option Fault :=
  match next with
  | none =>
    if (contents.length : Int) ≤ token.offset then some (.lastSpanEmpty (toMark token)) else none
  | some next =>
    if (contents.length : Int) < next.offset then
      some (.spanCutShort (toMark token) next.offset (contents.length - token.offset.toNat))
    else none

/-- The bytes from a token's offset to that of the next one. -/
def slice (token : Token) (next : Option Token) (contents : Bytes) : Bytes :=
  sourceBytes contents token.offset (next.map offset)

/-- What a token is read as, given the one that follows it. -/
def textBefore (encoding : Encoding) (name : Text) (contents : Bytes) (token : Token)
    (next : Option Token) : Except Failure Text :=
  match token.shortage? next contents with
  | some fault => .error (.fault fault)
  | none => (encoding.decode (token.slice next contents)).mapError fun malformed =>
      .fault (.undecodable (token.slice next contents) token.offset name malformed.defect)

/-- What a token is read as once it has been looked for in each place of a sequence. -/
def textAmong (encoding : Encoding) (name : Text) (contents : Bytes) (token : Token) :
    List Token → Except Failure Text
  | [] => .error (.fault (.tokenAbsent token))
  | member :: rest =>
    if member = token then token.textBefore encoding name contents rest.head?
    else token.textAmong encoding name contents rest

/-- The slices of the contents that the members of a sequence stand for. -/
def slices (contents : Bytes) : List Token → List Bytes
  | [] => []
  | token :: rest => token.slice rest.head? contents :: slices contents rest

theorem textIn_eq (named : encoding.HasName name) (packable : token.IsPackable)
    {next : Option Token} (nextPackable : ∀ other ∈ next, other.IsPackable)
    (increasing : ∀ other ∈ next, token.offset < other.offset) :
    (toMark token).textIn (nextOffset next) name contents =
      token.textBefore encoding name contents next := by
  have nonneg : 0 ≤ (toMark token).offset := packable.1
  rw [Mark.textIn, textBefore]
  cases next with
  | none =>
      rw [nextOffset_token, Option.map_none, Mark.span_none nonneg packable.isAddressable.2]
      simp only [shortage?, toMark]
      split
      · rfl
      · exact Mark.decodeSpan_eq named _ _
  | some next =>
      rw [nextOffset_token, Option.map_some, Mark.span_some nonneg (increasing next rfl)
        (nextPackable next rfl).isAddressable.2]
      simp only [shortage?, toMark]
      split
      · rfl
      · exact Mark.decodeSpan_eq named _ _

theorem textAmong_of_notMem (absent : token ∉ tokens) :
    token.textAmong encoding name contents tokens = .error (.fault (.tokenAbsent token)) := by
  induction tokens with
  | nil => rfl
  | cons member rest inductionHypothesis =>
      rw [List.mem_cons, not_or] at absent
      rw [textAmong, if_neg (Ne.symm absent.1), inductionHypothesis absent.2]

/-- No token comes twice in a sequence with increasing offsets, so the first one that is found
is at the place given. -/
theorem textAmong_of_getElem? (increasing : tokens.Pairwise (·.offset < ·.offset)) {index : Nat}
    (found : tokens[index]? = some token) :
    token.textAmong encoding name contents tokens =
      token.textBefore encoding name contents tokens[index + 1]? := by
  induction tokens generalizing index with
  | nil => contradiction
  | cons member rest inductionHypothesis =>
      rw [List.pairwise_cons] at increasing
      cases index with
      | zero =>
          obtain rfl : member = token := Option.some.inj found
          rw [textAmong, if_pos rfl, List.getElem?_cons_succ, List.head?_eq_getElem?]
      | succ index =>
          have foundRest : rest[index]? = some token := found
          have apart : member ≠ token := by
            rintro rfl
            exact absurd (increasing.1 member (List.mem_of_getElem? foundRest)) (Int.lt_irrefl _)
          rw [textAmong, if_neg apart, inductionHypothesis increasing.2 foundRest]
          rfl

theorem shortage?_isSome_iff {next : Option Token} :
    (token.shortage? next contents).isSome ↔
      (next = none ∧ (contents.length : Int) ≤ token.offset) ∨
        ∃ other, next = some other ∧ (contents.length : Int) < other.offset := by
  cases next with
  | none =>
      simp only [shortage?]
      split <;> simp_all
  | some other =>
      simp only [shortage?]
      split <;> simp_all

theorem concernsSpan_of_shortage? {next : Option Token} {fault : Fault}
    (lacking : token.shortage? next contents = some fault) : fault.ConcernsSpan := by
  cases next with
  | none =>
      simp only [shortage?, Option.ite_none_right_eq_some, Option.some.injEq] at lacking
      rw [← lacking.2]
      exact .lastSpanEmpty _
  | some other =>
      simp only [shortage?, Option.ite_none_right_eq_some, Option.some.injEq] at lacking
      rw [← lacking.2]
      exact .spanCutShort _ _ _

/-- A token has no text for one of two reasons: the contents end too early, or its bytes are
undecodable. -/
theorem textBefore_eq_error_iff {next : Option Token} {failure : Failure} :
    token.textBefore encoding name contents next = .error failure ↔
      (∃ fault, token.shortage? next contents = some fault ∧ failure = .fault fault) ∨
        token.shortage? next contents = none ∧
          ∃ malformed, encoding.decode (token.slice next contents) = .error malformed ∧
            failure = .fault
              (.undecodable (token.slice next contents) token.offset name malformed.defect) := by
  rw [textBefore]
  cases token.shortage? next contents with
  | none =>
      simp only [Except.mapError_eq_error_iff, reduceCtorEq, false_and, exists_false, false_or,
        true_and]
      exact exists_congr fun malformed => and_congr_right fun _ => eq_comm
  | some fault => simp [eq_comm]

theorem textBefore_concernsSpan_iff {next : Option Token} :
    (∃ fault, token.textBefore encoding name contents next = .error (.fault fault) ∧
      fault.ConcernsSpan) ↔ (token.shortage? next contents).isSome := by
  rw [Option.isSome_iff_exists]
  constructor
  · rintro ⟨fault, failed, concernsSpan⟩
    rcases textBefore_eq_error_iff.mp failed with ⟨lack, lacking, _⟩ | ⟨_, _, _, same⟩
    · exact ⟨lack, lacking⟩
    · cases same
      cases concernsSpan
  · rintro ⟨fault, lacking⟩
    refine ⟨fault, textBefore_eq_error_iff.mpr (.inl ⟨fault, lacking, rfl⟩), ?_⟩
    exact concernsSpan_of_shortage? lacking

theorem textBefore_ne_absent (next : Option Token) (absent : Token) :
    token.textBefore encoding name contents next ≠ .error (.fault (.tokenAbsent absent)) := by
  intro failed
  rcases textBefore_eq_error_iff.mp failed with ⟨lack, lacking, same⟩ | ⟨_, _, _, same⟩
  · cases same
    cases concernsSpan_of_shortage? lacking
  · cases same

theorem shortage?_eq_none_of_textIn (named : encoding.HasName name) (packable : token.IsPackable)
    {next : Option Token} (nextPackable : ∀ other ∈ next, other.IsPackable)
    (increasing : ∀ other ∈ next, token.offset < other.offset) {text : Text}
    (read : (toMark token).textIn (nextOffset next) name contents = .ok text) :
    token.shortage? next contents = none := by
  rw [textIn_eq named packable nextPackable increasing] at read
  cases lacking : token.shortage? next contents with
  | none => rfl
  | some fault =>
      rw [textBefore_eq_error_iff.mpr (.inl ⟨fault, lacking, rfl⟩)] at read
      contradiction

theorem slices_cons (contents : Bytes) (token : Token) (rest : List Token) :
    slices contents (token :: rest) = token.slice rest.head? contents :: slices contents rest :=
  rfl

theorem getElem?_slices (contents : Bytes) (tokens : List Token) (index : Nat) :
    (slices contents tokens)[index]? = tokens[index]?.map fun token =>
      token.slice tokens[index + 1]? contents := by
  induction tokens generalizing index with
  | nil => rfl
  | cons token rest inductionHypothesis =>
      cases index with
      | zero => simp [slices, List.head?_eq_getElem?]
      | succ index => simpa [slices] using inductionHypothesis index

end Token

namespace Source

/-- Reading the texts of a sequence in order stops at the first one that is missing. -/
theorem texts_eq_ofResults (source : Source) (encoding : Text) (tokens : List Token) :
    source.texts encoding tokens =
      (.ofResults (tokens.zip (readings encoding source.contents tokens)), source) := by
  induction tokens with
  | nil => rfl
  | cons token rest inductionHypothesis =>
      rw [texts, readSpan_eq, readings, List.zip_cons_cons]
      cases (toMark token).textIn (nextOffset rest.head?) encoding source.contents with
      | error failure => rfl
      | ok text => simp only [inductionHypothesis, Partial.ofResults]

theorem tokenText_of_notMem (source : Source) (encoding : Text) (packable : token.IsPackable)
    (absent : token ∉ tokens) :
    source.tokenText token tokens encoding = (.error (.fault (.tokenAbsent token)), source) := by
  have tellable := Fault.isTellable_tokenAbsent.mpr packable.isWritable
  rw [tokenText_token, ← Fault.raised_of_isTellable tellable]
  exact if_neg fun found => absent (List.mem_of_getElem? found)

/-- The texts of a sequence read in order are those of its members looked up. -/
theorem readings_eq_map (source : Source) (encoding : Text)
    (increasing : tokens.Pairwise (·.offset < ·.offset)) :
    readings encoding source.contents tokens =
      tokens.map fun token : Token => (source.tokenText token tokens encoding).1 := by
  apply List.ext_getElem?
  intro index
  rw [getElem?_readings, List.getElem?_map]
  cases found : tokens[index]? with
  | none => rfl
  | some token =>
      rw [Option.map_some, Option.map_some,
        tokenText_of_increasing source encoding increasing found]

/-- In a sequence with increasing offsets, halving it finds what going through it finds. -/
theorem tokenText_eq_textAmong (source : Source) (named : encoding.HasName name)
    (increasing : tokens.Pairwise (·.offset < ·.offset))
    (packable : ∀ member ∈ token :: tokens, member.IsPackable) :
    source.tokenText token tokens name =
      (token.textAmong encoding name source.contents tokens, source) := by
  rw [List.forall_mem_cons] at packable
  by_cases member : token ∈ tokens
  · rcases List.mem_iff_getElem?.mp member with ⟨index, found⟩
    have behind : ∀ other ∈ tokens[index + 1]?, token.offset < other.offset := by
      intro other otherNext
      rcases List.getElem?_eq_some_iff.mp found with ⟨inside, rfl⟩
      rcases List.getElem?_eq_some_iff.mp otherNext with ⟨nextInside, rfl⟩
      exact List.pairwise_iff_getElem.mp increasing _ _ inside nextInside (Nat.lt_succ_self _)
    rw [tokenText_of_increasing source name increasing found,
      Token.textAmong_of_getElem? increasing found]
    congr 1
    apply Token.textIn_eq named packable.1 _ behind
    intro other otherNext
    exact packable.2 other (List.mem_of_getElem? otherNext)
  · rw [tokenText_of_notMem source name packable.1 member, Token.textAmong_of_notMem member]

/-- Nothing stops the reading of a sequence in order exactly if each member has a text. -/
theorem failure_texts_eq_none_iff {source : Source} :
    (source.texts name tokens).1.failure = none ↔ IsReadable name source.contents tokens := by
  induction tokens with
  | nil => simp [texts, Partial.done, isReadable_nil]
  | cons token rest inductionHypothesis =>
      rw [isReadable_cons_iff, texts, readSpan_eq]
      cases (toMark token).textIn (nextOffset rest.head?) name source.contents with
      | error failure => simp [Partial.failed]
      | ok text => simpa using inductionHypothesis

end Source

namespace Token

theorem length_slice {next : Token} (nonneg : 0 ≤ token.offset)
    (before : token.offset < next.offset)
    (complete : token.shortage? (some next) contents = none) :
    ((token.slice (some next) contents).length : Int) = next.offset - token.offset := by
  simp only [shortage?, ite_eq_right_iff, reduceCtorEq, imp_false, Int.not_lt] at complete
  simp only [slice, Option.map_some, sourceBytes, List.length_take, List.length_drop]
  omega

/-- The slices of a sequence are the contents from its first token on. -/
theorem flatten_slices (increasing : (token :: tokens).Pairwise (·.offset < ·.offset))
    (nonneg : 0 ≤ token.offset) :
    (slices contents (token :: tokens)).flatten = contents.drop token.offset.toNat := by
  induction tokens generalizing token with
  | nil => simp [slices, slice, sourceBytes]
  | cons next rest inductionHypothesis =>
      rw [List.pairwise_cons] at increasing
      have before := increasing.1 next List.mem_cons_self
      have place : token.offset.toNat + (next.offset - token.offset).toNat =
          next.offset.toNat := by
        omega
      rw [slices, List.flatten_cons, inductionHypothesis increasing.2 (by omega), ← place,
        ← List.drop_drop]
      exact List.take_append_drop _ _

/-- Each slice of a sequence that can be read starts where the one before it ends. -/
theorem offset_eq_of_isReadable (named : encoding.HasName name)
    (increasing : (token :: tokens).Pairwise (·.offset < ·.offset))
    (packable : ∀ member ∈ token :: tokens, member.IsPackable)
    (readable : Source.IsReadable name contents (token :: tokens)) {index : Nat} {member : Token}
    (found : (token :: tokens)[index]? = some member) :
    member.offset =
      token.offset + (((slices contents (token :: tokens)).take index).flatten.length : Int) := by
  induction tokens generalizing token index with
  | nil =>
      cases index with
      | zero =>
          cases found
          simp
      | succ index => simp at found
  | cons next rest inductionHypothesis =>
      cases index with
      | zero =>
          cases found
          simp
      | succ index =>
          rw [List.pairwise_cons] at increasing
          rw [List.forall_mem_cons] at packable
          rw [Source.isReadable_cons_iff] at readable
          rcases readable.1 with ⟨text, read⟩
          have before := increasing.1 next List.mem_cons_self
          have complete : token.shortage? (some next) contents = none := by
            apply shortage?_eq_none_of_textIn named packable.1 _ _ read
            · rintro _ ⟨⟩
              exact packable.2 next List.mem_cons_self
            · rintro _ ⟨⟩
              exact before
          have width := length_slice packable.1.1 before complete
          rw [inductionHypothesis increasing.2 packable.2 readable.2 found,
            slices_cons _ token, List.take_succ_cons, List.flatten_cons, List.length_append,
            List.head?_cons]
          omega

end Token

/-- Looking a token up in a sequence with increasing offsets is going through the sequence. It is
absent exactly if it is no member. Otherwise its span is at fault exactly if the contents end
before it does, and if they do not, its text is that of all bytes of the span, or these bytes are
undecodable. Reading the sequence in order gives the same results up to the first failure, and
without one the spans make up the contents from the first token on. -/
theorem lookup_is_linear_search (source : Source) (token : Token) (tokens : List Token)
    (named : encoding.HasName name) (increasing : tokens.Pairwise (·.offset < ·.offset))
    (inRange : ∀ member ∈ token :: tokens, 0 ≤ member.offset ∧ member.offset < 2 ^ 32) :
    source.tokenText token tokens name =
      (token.textAmong encoding name source.contents tokens, source) ∧
    ((∃ absent, (source.tokenText token tokens name).1 = .error (.fault (.tokenAbsent absent))) ↔
      token ∉ tokens) ∧
    (∀ index : Nat, tokens[index]? = some token →
      let next := tokens[index + 1]?
      let data := sourceBytes source.contents token.offset (next.map Token.offset)
      let endsEarly := (next = none ∧ (source.contents.length : Int) ≤ token.offset) ∨
        ∃ other, next = some other ∧ (source.contents.length : Int) < other.offset
      ((∃ fault, (source.tokenText token tokens name).1 = .error (.fault fault) ∧
        fault.ConcernsSpan) ↔ endsEarly) ∧
      (¬endsEarly → (source.tokenText token tokens name).1 =
        (encoding.decode data).mapError fun malformed =>
          .fault (.undecodable data token.offset name malformed.defect))) ∧
    source.texts name tokens =
      (.ofResults (tokens.map fun member : Token =>
        (member, (source.tokenText member tokens name).1)), source) ∧
    ∀ first rest, tokens = first :: rest → (source.texts name tokens).1.failure = none →
      (Token.slices source.contents tokens).flatten =
        source.contents.drop first.offset.toNat ∧
      ∀ (index : Nat) member, tokens[index]? = some member →
        (Token.slices source.contents tokens)[index]? =
          some (sourceBytes source.contents member.offset
            (tokens[index + 1]?.map Token.offset)) ∧
        member.offset = first.offset +
          (((Token.slices source.contents tokens).take index).flatten.length : Int) := by
  have allPackable : ∀ member ∈ token :: tokens, member.IsPackable := by
    intro member memberMem
    have bounds := inRange member memberMem
    refine ⟨bounds.1, ?_⟩
    rw [Token.maxOffset]
    omega
  have searched := source.tokenText_eq_textAmong named increasing allPackable
  rw [List.forall_mem_cons] at allPackable
  refine ⟨searched, ?_, ?_, ?_, ?_⟩
  · rw [searched]
    constructor
    · rintro ⟨absent, failed⟩ member
      rcases List.mem_iff_getElem?.mp member with ⟨index, found⟩
      rw [Token.textAmong_of_getElem? increasing found] at failed
      exact Token.textBefore_ne_absent _ absent failed
    · intro absent
      exact ⟨token, Token.textAmong_of_notMem absent⟩
  · intro index found next data endsEarly
    rw [searched, Token.textAmong_of_getElem? increasing found,
      Token.textBefore_concernsSpan_iff]
    refine ⟨Token.shortage?_isSome_iff, ?_⟩
    intro complete
    have noShortage := mt Token.shortage?_isSome_iff.mp complete
    rw [Token.textBefore, Option.not_isSome_iff_eq_none.mp noShortage]
    rfl
  · rw [source.texts_eq_ofResults, source.readings_eq_map name increasing,
      List.map_prod_left_eq_zip]
  · rintro first rest rfl complete
    have readable := Source.failure_texts_eq_none_iff.mp complete
    have nonneg := (allPackable.2 first List.mem_cons_self).1
    refine ⟨Token.flatten_slices increasing nonneg, ?_⟩
    intro index member found
    refine ⟨?_, Token.offset_eq_of_isReadable named increasing allPackable.2 readable found⟩
    rw [Token.getElem?_slices, found]
    rfl

/-- A sequence that starts behind the first byte of its source, read over a handle that stands in
the middle. -/
theorem lookup_is_linear_search_of_tail :
    (Source.mk [0x20, 0x2b, 0x0a] 2).tokenText (Token.mk 1 .plus)
        [Token.mk 1 .plus, ⟨2, .newline⟩] "utf-8".toList =
      (.ok "+".toList, ⟨[0x20, 0x2b, 0x0a], 2⟩) ∧
    (Token.slices [0x20, 0x2b, 0x0a] [⟨1, .plus⟩, ⟨2, .newline⟩]).flatten = [0x2b, 0x0a] := by
  have increasing : [Token.mk 1 .plus, ⟨2, .newline⟩].Pairwise (·.offset < ·.offset) := by
    decide
  rcases lookup_is_linear_search ⟨[0x20, 0x2b, 0x0a], 2⟩ ⟨1, .plus⟩ [⟨1, .plus⟩, ⟨2, .newline⟩]
    Encoding.hasName_utf8 increasing (by decide) with ⟨searched, _, _, inOrder, tiled⟩
  have complete : ((Source.mk [0x20, 0x2b, 0x0a] 2).texts "utf-8".toList
      [Token.mk 1 .plus, ⟨2, .newline⟩]).1.failure = none := by
    rfl
  exact ⟨searched, (tiled _ _ rfl complete).1⟩

end Lexeme
