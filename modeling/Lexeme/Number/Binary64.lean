import Lexeme.Text.Basic

/-!
# Binary floating-point values

A finite value of the 64-bit binary format is a mantissa below 2^53 times a power of
two whose exponent is at least -1074. A decimal is read as the nearest such value,
a half going to the even mantissa, and as an infinity when it is too large.
-/

namespace Lexeme

/-- A value of the 64-bit binary floating-point format. -/
inductive Binary64
  /-- The number `mantissa * 2 ^ exponent`, with a sign of its own. -/
  | finite (negative : Bool) (mantissa : Nat) (exponent : Int)
  | infinite (negative : Bool)
  | notANumber
  deriving DecidableEq

namespace Binary64

/-- The quotient rounded to the nearest integer, a half going to the even one. -/
def roundHalfEven (numerator denominator : Nat) : Nat :=
  let quotient := numerator / denominator
  let twiceRest := 2 * (numerator % denominator)
  if twiceRest < denominator then quotient
  else if denominator < twiceRest then quotient + 1
  else if quotient % 2 = 0 then quotient
  else quotient + 1

def scaledQuotient (numerator denominator : Nat) (exponent : Int) : Nat :=
  roundHalfEven (numerator * Nat.pow 2 (-exponent).toNat)
    (denominator * Nat.pow 2 exponent.toNat)

/-- The exponent at which the mantissa of a positive fraction has 53 bits, or the
least exponent if the fraction is too small for that. -/
def exponentOf (numerator denominator : Nat) : Int :=
  let estimate : Int := (Nat.log2 numerator : Int) - (Nat.log2 denominator : Int) - 53
  let exponent :=
    if numerator * Nat.pow 2 (-estimate).toNat <
        Nat.pow 2 53 * (denominator * Nat.pow 2 estimate.toNat) then
      estimate
    else estimate + 1
  max exponent (-1074)

def ofFraction (negative : Bool) (numerator denominator : Nat) : Binary64 :=
  if numerator = 0 then finite negative 0 (-1074)
  else
    let exponent := exponentOf numerator denominator
    let mantissa := scaledQuotient numerator denominator exponent
    let (mantissa, exponent) :=
      if mantissa = Nat.pow 2 53 then (Nat.pow 2 52, exponent + 1) else (mantissa, exponent)
    if 971 < exponent then infinite negative else finite negative mantissa exponent

/-- The value nearest to `digits * 10 ^ exponent`. Magnitudes that are far outside
the format's range are settled by the number of digits alone. -/
def ofDecimal (negative : Bool) (digits : Nat) (exponent : Int) : Binary64 :=
  let magnitude : Int := (Nat.toDigits 10 digits).length + exponent
  if digits = 0 ∨ magnitude < -400 then finite negative 0 (-1074)
  else if 400 < magnitude then infinite negative
  else ofFraction negative (digits * Nat.pow 10 exponent.toNat) (Nat.pow 10 (-exponent).toNat)

def integer? : Binary64 → Option Int
  | finite negative mantissa exponent =>
    let divisor := Nat.pow 2 (-exponent).toNat
    if mantissa % divisor = 0 then
      let magnitude : Int := (mantissa / divisor * Nat.pow 2 exponent.toNat : Nat)
      some (if negative then -magnitude else magnitude)
    else none
  | infinite _ | notANumber => none

end Binary64

end Lexeme
