import Lexeme.Proofs.Encoding.Ascii
import Lexeme.Proofs.Literal
import Lexeme.Word
import Mathlib.Data.List.Chain

/-!
# Word factorisations

Source data is cut into words in one way only. What a cut has to look like is said here of the
slices alone: each is a literal of one byte, a line break of two, or a run without such
literals, runs are as long as they can be, and a carriage return is never torn from a line
feed. Every cut of this kind is the one that `Piece.cut` makes.
-/

namespace Lexeme

/-- Whether a byte is a literal by itself. -/
def IsLiteralByte (byte : UInt8) : Prop :=
  ∃ group ∈ cascade, ∃ entry ∈ group.literals, entry.1 = [Char.ofNat byte.toNat]

instance : DecidablePred IsLiteralByte := fun byte =>
  inferInstanceAs (Decidable (∃ group ∈ cascade, ∃ entry ∈ group.literals,
    entry.1 = [Char.ofNat byte.toNat]))

namespace Slice

def lineBreak : Bytes := [0x0d, 0x0a]

/-- A literal of one byte. -/
def IsAtom (slice : Bytes) : Prop :=
  ∃ byte ∈ slice, IsLiteralByte byte ∧ slice = [byte]

-- The bytes of the slice are gone through, not all bytes there are.
instance : DecidablePred IsAtom := fun slice =>
  List.decidableBEx (fun byte => IsLiteralByte byte ∧ slice = [byte]) slice

/-- At least one byte, and no literal among the bytes. -/
def IsRun (slice : Bytes) : Prop :=
  slice ≠ [] ∧ ∀ byte ∈ slice, ¬IsLiteralByte byte

instance : DecidablePred IsRun := fun slice =>
  @instDecidableAnd _ _ (inferInstanceAs (Decidable (slice ≠ [])))
    (List.decidableBAll (fun byte => ¬IsLiteralByte byte) slice)

def IsWord (slice : Bytes) : Prop :=
  IsAtom slice ∨ slice = lineBreak ∨ IsRun slice

instance : DecidablePred IsWord := fun slice =>
  inferInstanceAs (Decidable (IsAtom slice ∨ slice = lineBreak ∨ IsRun slice))

/-- Whether a slice may stand right before another: after a run there is no further run, nor
a line feed if the run ends in a carriage return. -/
def MayPrecede (slice next : Bytes) : Prop :=
  IsRun slice → ¬IsRun next ∧ ¬(slice.getLast? = some 0x0d ∧ next = [0x0a])

instance (slice next : Bytes) : Decidable (MayPrecede slice next) :=
  inferInstanceAs (Decidable (IsRun slice →
    ¬IsRun next ∧ ¬(slice.getLast? = some 0x0d ∧ next = [0x0a])))

/-- A cut of some data into words. -/
structure Factorises (slices : List Bytes) (data : Bytes) : Prop where
  joined : slices.flatten = data
  words : ∀ slice ∈ slices, IsWord slice
  neighbours : slices.IsChain MayPrecede

instance (slices : List Bytes) (data : Bytes) : Decidable (Factorises slices data) :=
  decidable_of_iff (slices.flatten = data ∧ (∀ slice ∈ slices, IsWord slice) ∧
      slices.IsChain MayPrecede)
    ⟨fun ⟨joined, words, neighbours⟩ => ⟨joined, words, neighbours⟩,
      fun ⟨joined, words, neighbours⟩ => ⟨joined, words, neighbours⟩⟩

end Slice

namespace Piece

/-- The bytes that are looked for in the data are the literals of one character. -/
theorem isBreak_iff (byte : UInt8) : isBreak byte = true ↔ IsLiteralByte byte := by
  simp only [isBreak, breakBytes, List.contains_iff_mem, List.mem_flatMap, List.mem_filterMap]
  constructor
  · rintro ⟨group, groupMem, entry, entryMem, matched⟩
    refine ⟨group, groupMem, entry, entryMem, ?_⟩
    split at matched
    · next c single =>
        have small := literal_isAscii group groupMem entry entryMem c (by simp [single])
        have isByte : c.toNat < 256 := by omega
        rw [← Option.some.inj matched, single, UInt8.toNat_ofNat_of_lt' isByte, Char.ofNat_toNat]
    · contradiction
  · rintro ⟨group, groupMem, entry, entryMem, single⟩
    refine ⟨group, groupMem, entry, entryMem, ?_⟩
    simp only [single, toNat_ofNat_byte, UInt8.ofNat_toNat]

theorem lineFeed_isLiteral : IsLiteralByte 0x0a :=
  (isBreak_iff 0x0a).mp (by decide)

theorem carriageReturn_notLiteral : ¬IsLiteralByte 0x0d := fun literal =>
  absurd ((isBreak_iff 0x0d).mpr literal) (by decide)

theorem isAscii_of_literal {byte : UInt8} (literal : IsLiteralByte byte) : byte.toNat < 0x80 := by
  rcases literal with ⟨group, groupMem, entry, entryMem, single⟩
  have small := literal_isAscii group groupMem entry entryMem (Char.ofNat byte.toNat)
    (by simp [single])
  rwa [toNat_ofNat_byte] at small

/-- Whether a piece is what its kind says. -/
def IsProper : Piece → Prop
  | mark data => Slice.IsAtom data ∨ data = Slice.lineBreak
  | run data => Slice.IsRun data

theorem isWord_data {piece : Piece} (proper : piece.IsProper) : Slice.IsWord piece.data := by
  cases piece with
  | mark data =>
      rcases proper with atom | lineBreak
      · exact Or.inl atom
      · exact Or.inr (Or.inl lineBreak)
  | run data => exact Or.inr (Or.inr proper)

theorem isProper_atom {byte : UInt8} (literal : IsLiteralByte byte) : (mark [byte]).IsProper :=
  Or.inl ⟨byte, List.mem_singleton_self byte, literal, rfl⟩

theorem data_ne_nil {piece : Piece} (proper : piece.IsProper) : piece.data ≠ [] := by
  cases piece with
  | mark slice => rcases proper with ⟨byte, _, _, rfl⟩ | rfl <;> simp [data, Slice.lineBreak]
  | run slice => exact proper.1

theorem exists_isProper {slice : Bytes} (word : Slice.IsWord slice) :
    ∃ piece : Piece, piece.IsProper ∧ piece.data = slice := by
  rcases word with atom | lineBreak | isRun
  · exact ⟨mark slice, Or.inl atom, rfl⟩
  · exact ⟨mark slice, Or.inr lineBreak, rfl⟩
  · exact ⟨run slice, isRun, rfl⟩

theorem exists_isProper_list {slices : List Bytes} (words : ∀ slice ∈ slices, Slice.IsWord slice) :
    ∃ pieces : List Piece, (∀ piece ∈ pieces, piece.IsProper) ∧ pieces.map data = slices := by
  induction slices with
  | nil => exact ⟨[], by simp, rfl⟩
  | cons slice slices inductionHypothesis =>
      rw [List.forall_mem_cons] at words
      rcases exists_isProper words.1 with ⟨piece, proper, rfl⟩
      rcases inductionHypothesis words.2 with ⟨pieces, allProper, rfl⟩
      exact ⟨piece :: pieces, List.forall_mem_cons.mpr ⟨proper, allProper⟩, rfl⟩

theorem cut_atom_cons {byte : UInt8} (literal : IsLiteralByte byte) (rest : Bytes) :
    cut (byte :: rest) = mark [byte] :: cut rest := by
  rw [cut.eq_def]
  split
  · contradiction
  · next same =>
      cases same
      exact absurd literal carriageReturn_notLiteral
  · next same =>
      cases same
      rw [if_pos ((isBreak_iff byte).mpr literal)]

theorem cut_cons_of_notLiteral {byte : UInt8} {rest : Bytes} (notLiteral : ¬IsLiteralByte byte)
    (notLineBreak : ¬(byte = 0x0d ∧ rest.head? = some 0x0a)) :
    cut (byte :: rest) = prepend byte (cut rest) := by
  rw [cut.eq_def]
  split
  · contradiction
  · next same =>
      cases same
      exact absurd ⟨rfl, rfl⟩ notLineBreak
  · next same =>
      cases same
      rw [if_neg fun isBreak => notLiteral ((isBreak_iff byte).mp isBreak)]

theorem prepend_of_noRun {byte : UInt8} {pieces : List Piece}
    (noRun : ∀ data rest, pieces ≠ run data :: rest) :
    prepend byte pieces = run [byte] :: pieces := by
  unfold prepend
  split
  · next data rest => exact absurd rfl (noRun data rest)
  · rfl

/-- A run is cut off as a whole where what follows neither continues it nor tears a line
break. -/
theorem cut_run_append {slice rest : Bytes} (isRun : Slice.IsRun slice)
    (noRun : ∀ data pieces, cut rest ≠ run data :: pieces)
    (notTorn : ¬(slice.getLast? = some 0x0d ∧ rest.head? = some 0x0a)) :
    cut (slice ++ rest) = run slice :: cut rest := by
  induction slice with
  | nil => exact absurd rfl isRun.1
  | cons byte tail inductionHypothesis =>
      rcases List.forall_mem_cons.mp isRun.2 with ⟨notLiteral, tailNotLiteral⟩
      cases tail with
      | nil =>
          rw [List.singleton_append, cut_cons_of_notLiteral notLiteral (by simpa using notTorn),
            prepend_of_noRun noRun]
      | cons next others =>
          have notLineFeed : next ≠ 0x0a := by
            rintro rfl
            exact tailNotLiteral 0x0a (by simp) lineFeed_isLiteral
          have tailCut := inductionHypothesis ⟨by simp, tailNotLiteral⟩
            (by simpa only [List.getLast?_cons_cons] using notTorn)
          rw [List.cons_append, cut_cons_of_notLiteral notLiteral (by simp [notLineFeed]), tailCut]
          rfl

/-- Proper pieces that may stand next to each other are the pieces of their bytes. -/
theorem cut_flatMap_data {pieces : List Piece} (proper : ∀ piece ∈ pieces, piece.IsProper)
    (neighbours : (pieces.map data).IsChain Slice.MayPrecede) :
    cut (pieces.flatMap data) = pieces := by
  induction pieces with
  | nil => rfl
  | cons piece pieces inductionHypothesis =>
      rw [List.forall_mem_cons] at proper
      rcases proper with ⟨headProper, tailProper⟩
      have tailCut := inductionHypothesis tailProper neighbours.tail
      rw [List.flatMap_cons]
      cases piece with
      | mark slice =>
          rcases headProper with ⟨byte, _, literal, rfl⟩ | rfl
          · change cut (byte :: pieces.flatMap data) = _
            rw [cut_atom_cons literal, tailCut]
          · exact congrArg (mark Slice.lineBreak :: ·) tailCut
      | run slice =>
          have mayPrecede : ∀ next rest, pieces = next :: rest →
              Slice.MayPrecede slice next.data := by
            rintro next rest rfl
            exact (List.isChain_cons_cons.mp neighbours).1
          refine (cut_run_append headProper ?_ ?_).trans (by rw [tailCut])
          · rw [tailCut]
            intro next rest same
            have nextProper := tailProper (run next) (by simp [same])
            exact (mayPrecede (run next) rest same headProper).1 nextProper
          · rintro ⟨endsInReturn, startsWithFeed⟩
            cases pieces with
            | nil => simp at startsWithFeed
            | cons next rest =>
                have allowed := mayPrecede next rest rfl headProper
                rcases isWord_data (tailProper next (by simp)) with
                  ⟨byte, _, _, atom⟩ | lineBreak | nextRun
                · have isFeed : byte = 0x0a := by simpa [atom] using startsWithFeed
                  exact allowed.2 ⟨endsInReturn, by rw [atom, isFeed]⟩
                · simp [lineBreak, Slice.lineBreak] at startsWithFeed
                · exact allowed.1 nextRun

theorem isProper_prepend {byte : UInt8} {pieces : List Piece} (notLiteral : ¬IsLiteralByte byte)
    (proper : ∀ piece ∈ pieces, piece.IsProper) :
    ∀ piece ∈ prepend byte pieces, piece.IsProper := by
  simp only [prepend]
  split
  · next slice rest =>
      rw [List.forall_mem_cons] at proper ⊢
      refine ⟨⟨by simp, ?_⟩, proper.2⟩
      exact List.forall_mem_cons.mpr ⟨notLiteral, proper.1.2⟩
  · rw [List.forall_mem_cons]
    exact ⟨⟨by simp, by simpa using notLiteral⟩, proper⟩

theorem isProper_of_mem_cut (source : Bytes) : ∀ piece ∈ cut source, piece.IsProper := by
  fun_induction cut source with
  | case1 => simp
  | case2 rest inductionHypothesis =>
      exact List.forall_mem_cons.mpr ⟨Or.inr rfl, inductionHypothesis⟩
  | case3 byte rest notLineBreak isBreak inductionHypothesis =>
      rw [List.forall_mem_cons]
      exact ⟨isProper_atom ((isBreak_iff byte).mp isBreak), inductionHypothesis⟩
  | case4 byte rest notLineBreak notBreak inductionHypothesis =>
      exact isProper_prepend (fun literal => notBreak ((isBreak_iff byte).mpr literal))
        inductionHypothesis

theorem not_isRun_of_mark {slice : Bytes} (proper : (mark slice).IsProper) :
    ¬Slice.IsRun slice := by
  intro isRun
  rcases proper with ⟨byte, _, literal, rfl⟩ | rfl
  · exact isRun.2 byte (by simp) literal
  · exact isRun.2 0x0a (by simp [Slice.lineBreak]) lineFeed_isLiteral

/-- A byte in front of a run joins it, so nothing changes for what follows; in front of
anything else it is a run of its own. -/
theorem neighbours_prepend {byte : UInt8} {pieces : List Piece}
    (proper : ∀ piece ∈ pieces, piece.IsProper)
    (neighbours : (pieces.map data).IsChain Slice.MayPrecede)
    (notTorn : ¬(byte = 0x0d ∧ (pieces.flatMap data).head? = some 0x0a)) :
    ((prepend byte pieces).map data).IsChain Slice.MayPrecede := by
  simp only [prepend]
  split
  · next slice rest =>
      have sliceRun : Slice.IsRun slice := proper (run slice) (by simp)
      rw [List.map_cons, List.isChain_cons] at neighbours ⊢
      refine ⟨?_, neighbours.2⟩
      intro next nextHead isRun
      have allowed := neighbours.1 next nextHead sliceRun
      refine ⟨allowed.1, ?_⟩
      rintro ⟨endsInReturn, isFeed⟩
      apply allowed.2
      refine ⟨?_, isFeed⟩
      rwa [data, List.getLast?_cons_of_ne_nil sliceRun.1] at endsInReturn
  · next notRun =>
      rw [List.map_cons, List.isChain_cons]
      refine ⟨?_, neighbours⟩
      intro next nextHead isRun
      cases pieces with
      | nil => simp at nextHead
      | cons piece rest =>
          have pieceProper := proper piece (by simp)
          obtain rfl : piece.data = next := by simpa using nextHead
          cases piece with
          | run slice => exact absurd rfl (notRun slice rest)
          | mark slice =>
              refine ⟨not_isRun_of_mark pieceProper, ?_⟩
              rintro ⟨isReturn, isFeed⟩
              apply notTorn
              refine ⟨by simpa [data] using isReturn, ?_⟩
              rw [List.flatMap_cons, isFeed]
              rfl

theorem neighbours_cut (source : Bytes) : ((cut source).map data).IsChain Slice.MayPrecede := by
  fun_induction cut source with
  | case1 => exact .nil
  | case2 rest inductionHypothesis =>
      rw [List.map_cons, List.isChain_cons]
      refine ⟨fun next _ isRun => ?_, inductionHypothesis⟩
      exact absurd isRun (not_isRun_of_mark (Or.inr rfl))
  | case3 byte rest notLineBreak isBreak inductionHypothesis =>
      rw [List.map_cons, List.isChain_cons]
      refine ⟨fun next _ isRun => ?_, inductionHypothesis⟩
      exact absurd isRun (not_isRun_of_mark (isProper_atom ((isBreak_iff byte).mp isBreak)))
  | case4 byte rest notLineBreak notBreak inductionHypothesis =>
      apply neighbours_prepend (isProper_of_mem_cut rest) inductionHypothesis
      rw [flatMap_data_cut]
      rintro ⟨isReturn, startsWithFeed⟩
      cases rest with
      | nil => simp at startsWithFeed
      | cons next others => exact notLineBreak others isReturn (by simpa using startsWithFeed)

/-- The slices of the pieces that some data is cut into factorise it. -/
theorem factorises_cut (source : Bytes) : Slice.Factorises ((cut source).map data) source where
  joined := by rw [← List.flatMap_def, flatMap_data_cut]
  words := by
    intro slice sliceMem
    rcases List.mem_map.mp sliceMem with ⟨piece, pieceMem, rfl⟩
    exact isWord_data (isProper_of_mem_cut source piece pieceMem)
  neighbours := neighbours_cut source

theorem eq_of_factorises {slices : List Bytes} {source : Bytes}
    (factorises : Slice.Factorises slices source) : slices = (cut source).map data := by
  rcases exists_isProper_list factorises.words with ⟨pieces, proper, rfl⟩
  rw [← factorises.joined, ← List.flatMap_def, cut_flatMap_data proper factorises.neighbours]

end Piece

end Lexeme
