import Lexeme.Proofs.Locate.Lookup

/-!
# The order of records

Records compare as the pairs of offset and ordinal do, the offset first. Tokens with increasing
offsets thus have increasing records, and a binary search for an offset that none of them has ends
at one place among the tokens and among their records.
-/

namespace Lexeme

namespace Token

variable {token other : Token} {tokens : List Token}

theorem record_lt_record_iff_lex (packable : token.IsPackable) (otherPackable : other.IsPackable) :
    token.record < other.record ↔
      Prod.Lex (· < ·) (· < ·) (token.offset, token.category.ordinal)
        (other.offset, other.category.ordinal) := by
  rw [record_lt_record_iff packable otherPackable, Prod.lex_def]

theorem pairwise_map_record (packable : ∀ token ∈ tokens, token.IsPackable)
    (increasing : tokens.Pairwise (·.offset < ·.offset)) :
    (tokens.map record).Pairwise (· < ·) := by
  rw [List.pairwise_map]
  apply increasing.imp_of_mem
  intro one other oneMem otherMem offset_lt
  exact (record_lt_record_iff (packable one oneMem) (packable other otherMem)).mpr (.inl offset_lt)

/-- A token that shares its offset with no member is searched alike by record and by offset. -/
theorem lowerBound_record_of_absent (packable : token.IsPackable)
    (allPackable : ∀ member ∈ tokens, member.IsPackable)
    (absent : ∀ member ∈ tokens, member.offset ≠ token.offset) :
    Search.lowerBound (· < token.record) (tokens.map record) =
      Search.lowerBound (· < token.offset) (tokens.map offset) := by
  rw [lowerBound_record packable allPackable, Search.lowerBound_map]
  intro member memberMem sameOffset
  exact absurd sameOffset (absent member memberMem)

end Token

/-- Records are ordered as the offsets of their tokens, and records of one offset as the ordinals.
So a sequence with increasing offsets has increasing records, and among tokens in whatever order an
offset that none of them has is searched alike by records and by offsets. -/
theorem records_are_ordered_as_tokens (token other : Token) (tokens : List Token)
    (packable : ∀ member ∈ token :: other :: tokens, ∃ data, member.pack = .ok data) :
    ∃ record otherRecord records,
      token.pack = .ok record ∧ other.pack = .ok otherRecord ∧
      tokens.mapM Token.pack = .ok records ∧
      (record < otherRecord ↔
        Prod.Lex (· < ·) (· < ·) (token.offset, token.category.ordinal)
          (other.offset, other.category.ordinal)) ∧
      (tokens.Pairwise (·.offset < ·.offset) → records.Pairwise (· < ·)) ∧
      ((∀ member ∈ tokens, member.offset ≠ token.offset) →
        Search.lowerBound (· < record) records =
          Search.lowerBound (· < token.offset) (tokens.map Token.offset)) := by
  have allPackable : ∀ member ∈ token :: other :: tokens, member.IsPackable := by
    intro member memberMem
    rcases packable member memberMem with ⟨data, packed⟩
    exact (Token.pack_eq_ok_iff.mp packed).1
  rw [List.forall_mem_cons, List.forall_mem_cons] at allPackable
  rcases allPackable with ⟨tokenPackable, otherPackable, tokensPackable⟩
  refine ⟨token.record, other.record, tokens.map Token.record, ?_, ?_, ?_, ?_, ?_, ?_⟩
  · exact Token.pack_of_isPackable tokenPackable
  · exact Token.pack_of_isPackable otherPackable
  · exact Token.mapM_pack_eq_ok_iff.mpr ⟨tokensPackable, rfl⟩
  · exact Token.record_lt_record_iff_lex tokenPackable otherPackable
  · exact Token.pairwise_map_record tokensPackable
  · exact Token.lowerBound_record_of_absent tokenPackable tokensPackable

/-- Offsets on both sides of a carry from one byte to the next. -/
theorem records_are_ordered_as_tokens_at_carry :
    ∃ record otherRecord records,
      (Token.mk 255 .unclassified).pack = .ok record ∧
      (Token.mk 256 .function).pack = .ok otherRecord ∧
      [Token.mk 254 .plus, ⟨65536, .function⟩].mapM Token.pack = .ok records ∧
      record < otherRecord ∧ records.Pairwise (· < ·) ∧
      Search.lowerBound (· < record) records = 1 := by
  have packable : ∀ member ∈
      [Token.mk 255 .unclassified, ⟨256, .function⟩, ⟨254, .plus⟩, ⟨65536, .function⟩],
      ∃ data, member.pack = .ok data := by
    intro member memberMem
    refine ⟨member.record, Token.pack_of_isPackable ?_⟩
    revert member
    simp [Token.IsPackable, Token.maxOffset]
  rcases records_are_ordered_as_tokens ⟨255, .unclassified⟩ ⟨256, .function⟩
    [⟨254, .plus⟩, ⟨65536, .function⟩] packable with
    ⟨record, otherRecord, records, packed, otherPacked, allPacked, ordered, increasing, searched⟩
  have place : Search.lowerBound (· < (255 : Int)) [254, 65536] = 1 := by
    simp [Search.lowerBound, Search.bisect]
  refine ⟨record, otherRecord, records, packed, otherPacked, allPacked, ?_, ?_, ?_⟩
  · exact ordered.mpr (Prod.Lex.left _ _ (by decide))
  · exact increasing (by decide)
  · exact (searched (by decide)).trans place

end Lexeme
