import Lexeme.Proofs.Locate.Span
import Lexeme.Proofs.Packed.Record
import Lexeme.Proofs.Search
import Mathlib.Data.Int.Order.Basic

/-!
# Looking up among tokens and among records

Tokens are searched by their offsets, records by all their bytes, so in a sequence in any
order the two searches can take different ways. They do so only at a token that shares its
offset with the one sought and differs from it in its category; then the one sought is not in
the sequence at all, and neither search finds it.
-/

namespace Lexeme

variable {token : Token} {tokens : List Token}

theorem nextOffset_token (next : Option Token) : nextOffset next = next.map Token.offset := by
  cases next <;> rfl

namespace Token

theorem any_toMark_beq_iff {found : Option Token} :
    found.any (toMark · == toMark token) = true ↔ found = some token := by
  cases found with
  | none => simp
  | some other => rw [Option.any_some, toMark_beq_toMark, Option.some.injEq]

/-- The records of tokens that stand at the sought one's offset only if they are the same are
searched as the tokens are. -/
theorem lowerBound_record (packable : token.IsPackable)
    (allPackable : ∀ other ∈ tokens, other.IsPackable)
    (sameAtOffset : ∀ other ∈ tokens, other.offset = token.offset → other = token) :
    Search.lowerBound (· < token.record) (tokens.map record) =
      Search.lowerBound (fun other => decide (other.offset < token.offset)) tokens := by
  rw [Search.lowerBound_map]
  apply Search.lowerBound_congr
  intro other otherMem
  rw [decide_eq_decide, record_lt_record_iff (allPackable other otherMem) packable]
  constructor
  · rintro (offset_lt | ⟨sameOffset, ordinal_lt⟩)
    · exact offset_lt
    · rw [sameAtOffset other otherMem sameOffset] at ordinal_lt
      exact absurd ordinal_lt (Nat.lt_irrefl _)
  · exact Or.inl

theorem getElem?_map_record_iff (packable : token.IsPackable)
    (allPackable : ∀ other ∈ tokens, other.IsPackable) (index : Nat) :
    (tokens.map record)[index]? = some token.record ↔ tokens[index]? = some token := by
  rw [List.getElem?_map, Option.map_eq_some_iff]
  constructor
  · rintro ⟨other, found, same⟩
    rw [found, record_injective (allPackable other (List.mem_of_getElem? found)) packable same]
  · intro found
    exact ⟨token, found, rfl⟩

theorem eq_of_increasing (increasing : tokens.Pairwise (·.offset < ·.offset)) {one other : Token}
    (oneMem : one ∈ tokens) (otherMem : other ∈ tokens) (sameOffset : one.offset = other.offset) :
    one = other := by
  rw [List.pairwise_iff_getElem] at increasing
  rcases List.mem_iff_getElem.mp oneMem with ⟨i, i_lt, rfl⟩
  rcases List.mem_iff_getElem.mp otherMem with ⟨j, j_lt, rfl⟩
  rcases Nat.lt_trichotomy i j with before | rfl | after
  · have offset_lt := increasing i j i_lt j_lt before
    omega
  · rfl
  · have offset_lt := increasing j i j_lt i_lt after
    omega

end Token

namespace Source

/-- A token's text is read where the search ends, if the token is there. -/
theorem tokenText_token (source : Source) (token : Token) (tokens : List Token)
    (encoding : Text) :
    source.tokenText token tokens encoding =
      let index :=
        Search.lowerBound (fun other => decide (other.offset < token.offset)) tokens
      if tokens[index]? = some token then
        (Mark.textIn token (nextOffset tokens[index + 1]?) encoding source.contents, source)
      else (.error (Fault.tokenAbsent token).raised, source) := by
  simp only [tokenText]
  simp only [Token.any_toMark_beq_iff, readSpan_eq]
  rfl

theorem recordOffset_map_record (allPackable : ∀ other ∈ tokens, other.IsPackable)
    (index : Nat) :
    recordOffset (tokens.map Token.record)[index]? = .ok (nextOffset tokens[index]?) := by
  rw [List.getElem?_map, nextOffset_token]
  cases found : tokens[index]? with
  | none => rfl
  | some next =>
      rw [Option.map_some, recordOffset,
        Token.unpack_record (allPackable next (List.mem_of_getElem? found))]
      rfl

theorem packedText_eq_tokenText (source : Source) (encoding : Text)
    (packable : token.IsPackable) (allPackable : ∀ other ∈ tokens, other.IsPackable)
    (consistent : ∀ one ∈ tokens, ∀ other ∈ tokens,
      one.offset = other.offset → one.category = other.category) :
    source.packedText token (tokens.map Token.record) encoding =
      source.tokenText token tokens encoding := by
  simp only [packedText, tokenText_token, Token.pack_of_isPackable packable,
    Token.getElem?_map_record_iff packable allPackable, recordOffset_map_record allPackable,
    readSpan_eq, Failure.absent_toMark]
  by_cases member : token ∈ tokens
  · have sameAtOffset : ∀ other ∈ tokens, other.offset = token.offset → other = token := by
      intro other otherMem sameOffset
      have sameCategory := consistent other otherMem token member sameOffset
      cases other
      cases token
      simp_all
    rw [Token.lowerBound_record packable allPackable sameAtOffset]
  · -- The searches may end at different places, but the token is at neither.
    rw [if_neg fun found => member (List.mem_of_getElem? found),
      if_neg fun found => member (List.mem_of_getElem? found)]

/-- In a sequence with increasing offsets every member is found at its own place. -/
theorem tokenText_of_increasing (source : Source) (encoding : Text)
    (increasing : tokens.Pairwise (·.offset < ·.offset)) {index : Nat}
    (found : tokens[index]? = some token) :
    source.tokenText token tokens encoding =
      (Mark.textIn token (nextOffset tokens[index + 1]?) encoding source.contents, source) := by
  rcases List.getElem?_eq_some_iff.mp found with ⟨inside, rfl⟩
  have place : Search.lowerBound
      (fun other => decide (other.offset < tokens[index].offset)) tokens = index :=
    Search.place_getElem Token.offset increasing inside
  rw [tokenText_token]
  simp only [place, found, if_true]

theorem packedText_of_increasing (source : Source) (encoding : Text)
    (increasing : tokens.Pairwise (·.offset < ·.offset))
    (packable : ∀ token ∈ tokens, token.IsPackable) {index : Nat}
    (found : tokens[index]? = some token) :
    source.packedText token (tokens.map Token.record) encoding =
      (Mark.textIn token (nextOffset tokens[index + 1]?) encoding source.contents, source) := by
  have member := List.mem_of_getElem? found
  rw [← tokenText_of_increasing source encoding increasing found]
  apply packedText_eq_tokenText source encoding (packable token member) packable
  intro one oneMem other otherMem sameOffset
  rw [Token.eq_of_increasing increasing oneMem otherMem sameOffset]

end Source

/-- Among tokens in any order, none of which shares its offset with one of another category,
a token's text is found, or missed, alike by tokens and by records, and both lookups leave
the handle alike. -/
theorem lookup_by_records_agrees (source : Source) (encoding : Text)
    (packable : ∀ member ∈ token :: tokens, ∃ data, member.pack = .ok data)
    (consistent : ∀ one ∈ tokens, ∀ other ∈ tokens,
      one.offset = other.offset → one.category = other.category) :
    ∃ records, tokens.mapM Token.pack = .ok records ∧
      source.packedText token records encoding = source.tokenText token tokens encoding := by
  have allPackable : ∀ member ∈ token :: tokens, member.IsPackable := by
    intro member memberMem
    rcases packable member memberMem with ⟨data, packed⟩
    exact (Token.pack_eq_ok_iff.mp packed).1
  rw [List.forall_mem_cons] at allPackable
  refine ⟨tokens.map Token.record, ?_, ?_⟩
  · exact Token.mapM_pack_eq_ok_iff.mpr ⟨allPackable.2, rfl⟩
  · exact source.packedText_eq_tokenText encoding allPackable.1 allPackable.2 consistent

/-- Among tokens that are out of order, one that shares its offset with others is sought. -/
theorem lookup_by_records_agrees_of_unsorted :
    ∃ records,
      [Token.mk 7 .plus, ⟨3, .function⟩, ⟨3, .function⟩].mapM Token.pack = .ok records ∧
        (Source.ofBytes [0x69, 0x66]).packedText ⟨3, .conditional⟩ records "utf-8".toList =
          (Source.ofBytes [0x69, 0x66]).tokenText (Token.mk 3 .conditional)
            [Token.mk 7 .plus, ⟨3, .function⟩, ⟨3, .function⟩] "utf-8".toList := by
  apply lookup_by_records_agrees
  · intro member memberMem
    refine ⟨member.record, Token.pack_of_isPackable ?_⟩
    revert member
    simp [Token.IsPackable, Token.maxOffset]
  · decide

end Lexeme
