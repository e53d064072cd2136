import Lexeme.Proofs.Locate.Linear

/-!
# Records in any order

A token file may hold its records in any order, and each token is looked up among them by halving.
In a sequence without repetition every token is found there only if the records increase. If they
do, all texts can be read exactly if the last token starts inside the contents and the bytes of
each token are decodable.
-/

namespace Lexeme

variable {encoding : Encoding} {name : Text} {contents : Bytes}
variable {token : Token} {tokens : List Token}

namespace Mark

variable {mark : Mark} {stop : Option Int}

/-- Wherever a span ends, a text that is read is the decoded form of the bytes up to there. -/
theorem decode_of_textIn (named : encoding.HasName name) {text : Text}
    (read : mark.textIn stop name contents = .ok text) :
    encoding.decode (sourceBytes contents mark.offset stop) = .ok text := by
  rcases Except.bind_eq_ok_iff.mp read with ⟨data, spanned, decoded⟩
  rw [decodeSpan_eq named, Except.mapError_eq_ok_iff] at decoded
  rwa [← eq_of_span spanned]

end Mark

namespace Token

/-- Whether the record of one token comes before that of another. -/
def Precedes (first second : Token) : Prop :=
  first.offset < second.offset ∨
    first.offset = second.offset ∧ first.category.ordinal < second.category.ordinal

theorem Precedes.offset_le {first second : Token} (precedes : first.Precedes second) :
    first.offset ≤ second.offset := by
  rcases precedes with offset_lt | ⟨sameOffset, _⟩
  · exact Int.le_of_lt offset_lt
  · exact Int.le_of_eq sameOffset

theorem pairwise_precedes_iff (packable : ∀ member ∈ tokens, member.IsPackable) :
    tokens.Pairwise Precedes ↔ tokens.Pairwise (code · < code ·) := by
  apply List.Pairwise.iff_of_mem
  intro first second firstMem secondMem
  exact (code_lt_code_iff (packable first firstMem) (packable second secondMem)).symm

theorem pairwise_record_iff (packable : ∀ member ∈ tokens, member.IsPackable) :
    (tokens.map record).Pairwise (· < ·) ↔ tokens.Pairwise Precedes := by
  rw [List.pairwise_map]
  apply List.Pairwise.iff_of_mem
  intro first second firstMem secondMem
  exact record_lt_record_iff (packable first firstMem) (packable second secondMem)

/-- Records are searched as their numbers are, in any order. -/
theorem lowerBound_record_eq_place (packable : token.IsPackable)
    (allPackable : ∀ member ∈ tokens, member.IsPackable) :
    Search.lowerBound (· < token.record) (tokens.map record) =
      Search.place code tokens token := by
  rw [Search.lowerBound_map]
  apply Search.lowerBound_congr
  intro member memberMem
  rw [decide_eq_decide]
  exact BigEndian.encode_lt_encode_iff (code_lt (allPackable member memberMem)) (code_lt packable)

/-- A token that starts inside the contents, or ends there, is read as its bytes are. -/
theorem textIn_of_inside (packable : token.IsPackable) {next : Token}
    (nextPackable : next.IsPackable) (ordered : token.offset ≤ next.offset)
    (inside : next.offset ≤ contents.length) :
    (toMark token).textIn (some next.offset) name contents =
      (toMark token).decodeSpan name (token.slice (some next) contents) := by
  have nonneg : 0 ≤ (toMark token).offset := packable.1
  rw [Mark.textIn, Mark.span_within nonneg ordered inside nextPackable.isAddressable.2]
  rfl

end Token

namespace Source

variable {source : Source}

/-- What comes of looking a token up among records in any order. -/
theorem packedText_token (source : Source) (encoding : Text) (packable : token.IsPackable)
    (allPackable : ∀ member ∈ tokens, member.IsPackable) :
    source.packedText token (tokens.map Token.record) encoding =
      let index := Search.place Token.code tokens token
      if tokens[index]? = some token then
        (Mark.textIn token (nextOffset tokens[index + 1]?) encoding source.contents, source)
      else (.error (Fault.tokenAbsent token).raised, source) := by
  simp only [packedText, Token.pack_of_isPackable packable,
    Token.getElem?_map_record_iff packable allPackable, recordOffset_map_record allPackable,
    readSpan_eq, Failure.absent_toMark, Token.lowerBound_record_eq_place packable allPackable]

theorem found_of_packedText (allPackable : ∀ member ∈ tokens, member.IsPackable)
    (lookedUp : ∀ member ∈ tokens, ∃ text,
      (source.packedText member (tokens.map Token.record) name).1 = .ok text) :
    ∀ member ∈ tokens, tokens[Search.place Token.code tokens member]? = some member := by
  intro member memberMem
  rcases lookedUp member memberMem with ⟨text, read⟩
  rw [packedText_token source name (allPackable member memberMem) allPackable] at read
  by_contra missing
  simp only [if_neg missing] at read
  contradiction

/-- Among records that increase, every token is found at its own place. -/
theorem packedText_of_ordered (source : Source) (name : Text)
    (allPackable : ∀ member ∈ tokens, member.IsPackable)
    (ordered : tokens.Pairwise Token.Precedes) {index : Nat}
    (found : tokens[index]? = some token) :
    source.packedText token (tokens.map Token.record) name =
      (Mark.textIn token (nextOffset tokens[index + 1]?) name source.contents, source) := by
  rcases List.getElem?_eq_some_iff.mp found with ⟨inside, rfl⟩
  have increasing := (Token.pairwise_precedes_iff allPackable).mp ordered
  have packable := allPackable _ (List.getElem_mem inside)
  rw [packedText_token source name packable allPackable]
  simp only [Search.place_getElem Token.code increasing inside, found, if_true]

theorem readings_eq_map_packedText (allPackable : ∀ member ∈ tokens, member.IsPackable)
    (ordered : tokens.Pairwise Token.Precedes) :
    readings name source.contents tokens = tokens.map fun token : Token =>
      (source.packedText token (tokens.map Token.record) name).1 := by
  apply List.ext_getElem?
  intro index
  rw [getElem?_readings, List.getElem?_map]
  cases found : tokens[index]? with
  | none => rfl
  | some token =>
      rw [Option.map_some, Option.map_some,
        packedText_of_ordered source name allPackable ordered found]

theorem forall_packedText_iff (allPackable : ∀ member ∈ tokens, member.IsPackable)
    (ordered : tokens.Pairwise Token.Precedes) (source : Source) :
    (∀ member ∈ tokens, ∃ text,
      (source.packedText member (tokens.map Token.record) name).1 = .ok text) ↔
      IsReadable name source.contents tokens := by
  rw [IsReadable, Except.exists_map_ok_iff, readings_eq_map_packedText allPackable ordered,
    List.forall_mem_map]

/-- Without repetition, all tokens have texts among their records only if the records increase. -/
theorem exists_packedText_iff (allPackable : ∀ member ∈ tokens, member.IsPackable)
    (nodup : tokens.Nodup) :
    (∀ member ∈ tokens, ∃ text,
      (source.packedText member (tokens.map Token.record) name).1 = .ok text) ↔
      tokens.Pairwise Token.Precedes ∧ IsReadable name source.contents tokens := by
  constructor
  · intro lookedUp
    have found := found_of_packedText allPackable lookedUp
    have ordered := (Token.pairwise_precedes_iff allPackable).mpr
      ((Search.found_iff_of_nodup nodup).mp found)
    exact ⟨ordered, (forall_packedText_iff allPackable ordered source).mp lookedUp⟩
  · rintro ⟨ordered, read⟩
    exact (forall_packedText_iff allPackable ordered source).mpr read

theorem isReadable_singleton_iff (named : encoding.HasName name) (packable : token.IsPackable) :
    IsReadable name contents [token] ↔
      token.offset < contents.length ∧
        ∃ text, encoding.decode (token.slice none contents) = .ok text := by
  have read : (toMark token).textIn (nextOffset (none : Option Token)) name contents =
      token.textBefore encoding name contents none := by
    apply Token.textIn_eq named packable <;> simp
  rw [isReadable_cons_iff, List.head?_nil, read, Token.textBefore, Token.shortage?]
  by_cases lacking : (contents.length : Int) ≤ token.offset
  · simp [lacking, Int.not_lt.mpr lacking]
  · simp only [lacking, if_false, Except.mapError_eq_ok_iff, isReadable_nil, and_true,
      Int.not_le.mp lacking, true_and]

/-- Tokens whose records increase can be read exactly if the last one starts inside the contents
and the bytes of each are decodable. -/
theorem isReadable_iff (named : encoding.HasName name)
    (allPackable : ∀ member ∈ tokens, member.IsPackable)
    (ordered : tokens.Pairwise Token.Precedes) :
    IsReadable name contents tokens ↔
      (∀ last ∈ tokens.getLast?, last.offset < contents.length) ∧
        ∀ slice ∈ Token.slices contents tokens, ∃ text, encoding.decode slice = .ok text := by
  induction tokens with
  | nil => simp [isReadable_nil, Token.slices]
  | cons token rest inductionHypothesis =>
      rw [List.forall_mem_cons] at allPackable
      cases rest with
      | nil =>
          rw [isReadable_singleton_iff named allPackable.1]
          simp [Token.slices]
      | cons next rest =>
          rw [List.pairwise_cons] at ordered
          have restIff := inductionHypothesis allPackable.2 ordered.2
          rw [isReadable_cons_iff, restIff, Token.slices_cons _ token, List.forall_mem_cons,
            List.getLast?_cons_cons]
          -- All tokens start no later than the last one, so the next one starts inside as well.
          have readFirst (inside : ∀ last ∈ (next :: rest).getLast?,
              last.offset < contents.length) :
              (∃ text, (toMark token).textIn (nextOffset (next :: rest).head?) name contents =
                .ok text) ↔
                ∃ text, encoding.decode (token.slice (next :: rest).head? contents) =
                  .ok text := by
            have lastMem := List.getLast?_eq_getLast_of_ne_nil (List.cons_ne_nil next rest)
            have lastInside := inside _ lastMem
            have nextBefore : next.offset ≤
                ((next :: rest).getLast (List.cons_ne_nil next rest)).offset := by
              rcases List.mem_cons.mp (List.getLast_mem (List.cons_ne_nil next rest)) with
                same | later
              · rw [same]
              · exact ((List.pairwise_cons.mp ordered.2).1 _ later).offset_le
            have nextPackable := allPackable.2 next List.mem_cons_self
            rw [List.head?_cons, nextOffset_token, Option.map_some,
              Token.textIn_of_inside allPackable.1 nextPackable
                (ordered.1 next List.mem_cons_self).offset_le (by omega)]
            simp only [Mark.decodeSpan_eq named, Except.mapError_eq_ok_iff]
          constructor
          · rintro ⟨read, inside, decodes⟩
            exact ⟨inside, (readFirst inside).mp read, decodes⟩
          · rintro ⟨inside, decodesFirst, decodes⟩
            exact ⟨(readFirst inside).mpr decodesFirst, inside, decodes⟩

end Source

end Lexeme
