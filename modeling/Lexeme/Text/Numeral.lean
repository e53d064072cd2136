import Lexeme.Text.Basic

/-!
# Numerals

Whole numbers are written in base ten without leading zeros, negative ones after
a minus sign. A number of very many digits has no written form, and whatever needs it
fails. Digits above nine are lower-case letters, and either case is read.
-/

namespace Lexeme.Numeral

def natural (n : Nat) : Text :=
  Nat.toDigits 10 n

def integer : Int → Text
  | .ofNat n => natural n
  | .negSucc n => '-' :: natural (n + 1)

/-- The largest number of digits in base ten with which numbers are written and read. -/
def maxDigits : Nat := 4300

/-- Whether a number has a written form in base ten. Its sign does not count as a digit. -/
def IsWritable (n : Int) : Prop :=
  (natural n.natAbs).length ≤ maxDigits

instance (n : Int) : Decidable (IsWritable n) :=
  inferInstanceAs (Decidable (_ ≤ _))

/-- The words for a number of too many digits, with what else is known about it. -/
def tooLongMessage (detail : String) : String :=
  "Exceeds the limit (4300 digits) for integer string conversion" ++ detail ++
    "; use sys.set_int_max_str_digits() to increase the limit"

/-- The `width` lowest digits of a number in base sixteen. -/
def hexadecimal : Nat → Nat → Text
  | 0, _ => []
  | width + 1, n => hexadecimal width (n / 16) ++ [(n % 16).digitChar]

/-- The value of a digit in a base of at most sixteen, in either case. -/
def digitValue? (base : Nat) (c : Char) : Option Nat :=
  let candidate :=
    if '0' ≤ c ∧ c ≤ '9' then some (c.toNat - '0'.toNat)
    else if 'a' ≤ c ∧ c ≤ 'f' then some (c.toNat - 'a'.toNat + 10)
    else if 'A' ≤ c ∧ c ≤ 'F' then some (c.toNat - 'A'.toNat + 10)
    else none
  candidate.filter (· < base)

/-- Reads digits of a base from the most significant one on; a character that is
not a digit counts as zero. -/
def value (base : Nat) (digits : Text) : Nat :=
  digits.foldl (fun total c => total * base + (digitValue? base c).getD 0) 0

def integerString (n : Int) : String :=
  String.ofList (integer n)

end Lexeme.Numeral
