import Lexeme.Proofs.Text.Lines
import Lexeme.Text.Hex

/-!
# Hexadecimal pairs read back

The pairs of some bytes are made of digits and are read back as the bytes, once the blanks between
them have been taken out.
-/

namespace Lexeme

namespace Hex

theorem digitValue?_digitChar :
    ∀ digit < 16, Numeral.digitValue? 16 (Nat.digitChar digit) = some digit := by
  decide

theorem digitChar_ne_mark :
    ∀ digit < 16, Nat.digitChar digit ≠ ' ' ∧ Nat.digitChar digit ≠ '`' := by
  decide

theorem pair_eq (byte : UInt8) :
    pair byte = [Nat.digitChar (byte.toNat / 16 % 16), Nat.digitChar (byte.toNat % 16)] :=
  rfl

theorem length_spaced (data : Bytes) : (spaced data).length = 3 * data.length - 1 := by
  rw [spaced]
  induction data with
  | nil => rfl
  | cons byte data inductionHypothesis =>
      by_cases last : data = []
      · subst last
        rfl
      · have nonempty := List.length_pos_iff.mpr last
        rw [List.map_cons, Text.joinWith_cons _ _ (by simpa using last), List.length_append,
          List.length_append, inductionHypothesis, pair_eq, List.length_cons]
        simp only [List.length_cons, List.length_nil]
        omega

/-- Pairs are made of digits. -/
theorem ne_mark_of_mem_pair {byte : UInt8} {c : Char} (cMem : c ∈ pair byte) :
    c ≠ ' ' ∧ c ≠ '`' := by
  rw [pair_eq] at cMem
  simp only [List.mem_cons, List.not_mem_nil, or_false] at cMem
  rcases cMem with rfl | rfl
  · exact digitChar_ne_mark _ (Nat.mod_lt _ (by decide))
  · exact digitChar_ne_mark _ (Nat.mod_lt _ (by decide))

theorem backtick_notMem_spaced (data : Bytes) : '`' ∉ spaced data := by
  intro backtickMem
  rcases Text.mem_of_mem_joinWith backtickMem with isBlank | ⟨text, textMem, inText⟩
  · simp at isBlank
  · rcases List.mem_map.mp textMem with ⟨byte, _, rfl⟩
    exact (ne_mark_of_mem_pair inText).2 rfl

theorem parse?_pair_append (byte : UInt8) (rest : Text) :
    parse? (pair byte ++ rest) = (parse? rest).map (byte :: ·) := by
  have byte_lt := byte.toNat_lt
  have halves : byte.toNat / 16 % 16 * 16 + byte.toNat % 16 = byte.toNat := by omega
  rw [pair_eq, List.cons_append, List.cons_append, List.nil_append, parse?,
    digitValue?_digitChar _ (Nat.mod_lt _ (by decide)),
    digitValue?_digitChar _ (Nat.mod_lt _ (by decide))]
  simp only [Option.bind_eq_bind, Option.bind_some, halves, UInt8.ofNat_toNat]
  cases parse? rest <;> rfl

theorem parse?_compact (data : Bytes) : parse? (compact data) = some data := by
  induction data with
  | nil => rfl
  | cons byte data inductionHypothesis =>
      rw [compact, List.map_cons, List.flatten_cons, parse?_pair_append]
      rw [compact] at inductionHypothesis
      rw [inductionHypothesis]
      rfl

/-- Bytes that are shown with blanks between them are read back without the blanks. -/
theorem parse?_spaced (data : Bytes) :
    parse? ((spaced data).filter (· ≠ ' ')) = some data := by
  have apart : ∀ text ∈ data.map pair, ' ' ∉ text := by
    intro text textMem blankMem
    rcases List.mem_map.mp textMem with ⟨byte, _, rfl⟩
    exact (ne_mark_of_mem_pair blankMem).1 rfl
  rw [spaced, Text.filter_joinWith apart]
  exact parse?_compact data

end Hex

end Lexeme
