import Lexeme.Proofs.Text.Hex
import Mathlib.Algebra.Group.Int.Defs
import Mathlib.Algebra.GroupWithZero.Nat

/-!
# What can be read off numerals

A numeral in base ten has digits only, behind a sign if the number is negative, and no two numbers
share one. Which numbers have a written form at all is a matter of their size. A numeral in base
sixteen is read back by its width.
-/

namespace Lexeme.Numeral

theorem isDigit_of_mem_natural {n : Nat} {c : Char} (cMem : c ∈ natural n) : c.isDigit :=
  Nat.isDigit_of_mem_toDigits (by decide) (by decide) cMem

theorem toNat_of_isDigit {c : Char} (isDigit : c.isDigit) : 0x30 ≤ c.toNat ∧ c.toNat ≤ 0x39 := by
  simpa [Char.isDigit, UInt32.le_iff_toNat_le] using isDigit

theorem natural_injective : Function.Injective natural := by
  intro n m same
  have readBack (k : Nat) : Nat.ofDigitChars 10 (natural k) 0 = k :=
    Nat.ofDigitChars_toDigits (by decide) (by decide)
  rw [← readBack n, same, readBack]

theorem mem_integer {n : Int} {c : Char} (cMem : c ∈ integer n) : c = '-' ∨ c.isDigit := by
  cases n with
  | ofNat n => exact Or.inr (isDigit_of_mem_natural cMem)
  | negSucc n =>
      rcases List.mem_cons.mp cMem with isSign | inDigits
      · exact Or.inl isSign
      · exact Or.inr (isDigit_of_mem_natural inDigits)

theorem integer_injective : Function.Injective integer := by
  have natural_ne_negative (n m : Nat) : natural n ≠ '-' :: natural m := by
    intro same
    have signMem : '-' ∈ natural n := by
      rw [same]
      exact List.mem_cons_self
    exact absurd (isDigit_of_mem_natural signMem) (by decide)
  intro n m same
  cases n with
  | ofNat n =>
      cases m with
      | ofNat m => rw [natural_injective same]
      | negSucc m => exact absurd same (natural_ne_negative n _)
  | negSucc n =>
      cases m with
      | ofNat m => exact absurd same.symm (natural_ne_negative m _)
      | negSucc m =>
          have sameSuccessor := natural_injective (List.tail_eq_of_cons_eq same)
          rw [Nat.succ.inj sameSuccessor]

theorem isWritable_iff {n : Int} : IsWritable n ↔ n.natAbs < 10 ^ maxDigits :=
  Nat.length_toDigits_le_iff (by decide) (by decide)

/-- A number that fits into a machine word has a written form. -/
theorem isWritable_of_le {n : Int} (lower : -(2 ^ 63) ≤ n) (upper : n ≤ 2 ^ 63) :
    IsWritable n := by
  have short : (natural n.natAbs).length ≤ 19 :=
    (Nat.length_toDigits_le_iff (by decide) (by decide)).mpr (by omega)
  exact Nat.le_trans short (by decide)

/-- The least number without a written form. -/
theorem not_isWritable_pow : ¬IsWritable (10 ^ maxDigits) := by
  have power (k : Nat) : ((10 : Int) ^ k).natAbs = 10 ^ k := Int.natAbs_pow 10 k
  rw [isWritable_iff, power]
  exact Nat.lt_irrefl _

@[simp]
theorem length_hexadecimal (width n : Nat) : (hexadecimal width n).length = width := by
  induction width generalizing n with
  | zero => rfl
  | succ width inductionHypothesis => simp [hexadecimal, inductionHypothesis]

theorem exists_digit_of_mem_hexadecimal {width n : Nat} {c : Char}
    (cMem : c ∈ hexadecimal width n) : ∃ digit < 16, c = Nat.digitChar digit := by
  induction width generalizing n with
  | zero => cases cMem
  | succ width inductionHypothesis =>
      rcases List.mem_append.mp cMem with inFront | isLast
      · exact inductionHypothesis inFront
      · exact ⟨n % 16, Nat.mod_lt _ (by decide), List.mem_singleton.mp isLast⟩

theorem value_hexadecimal (width n : Nat) : value 16 (hexadecimal width n) = n % 16 ^ width := by
  induction width generalizing n with
  | zero => exact (Nat.mod_one n).symm
  | succ width inductionHypothesis =>
      have front := inductionHypothesis (n / 16)
      rw [value] at front
      rw [hexadecimal, value, List.foldl_append, front, List.foldl_cons, List.foldl_nil,
        Hex.digitValue?_digitChar _ (Nat.mod_lt _ (by decide)), Option.getD_some, Nat.pow_succ',
        Nat.mod_mul, Nat.mul_comm, Nat.add_comm]

/-- A number of so many digits in base sixteen, and what stands behind it. -/
def readHexadecimal (width : Nat) (text : Text) : Nat × Text :=
  (value 16 (text.take width), text.drop width)

theorem readHexadecimal_append {width n : Nat} (fits : n < 16 ^ width) (rest : Text) :
    readHexadecimal width (hexadecimal width n ++ rest) = (n, rest) := by
  rw [readHexadecimal, List.take_left' (length_hexadecimal width n),
    List.drop_left' (length_hexadecimal width n), value_hexadecimal, Nat.mod_eq_of_lt fits]

end Lexeme.Numeral
