import Lexeme.Number.Binary64
import Lexeme.Text.Numeral

/-!
# Shortest decimals

A floating-point value is written with the fewest digits that read back as the same
value; of several such decimals the nearest to the value is taken. Between one
ten-thousandth and ten to the sixteenth the point stands among the digits, outside
of that range an exponent of at least two digits follows.
-/

namespace Lexeme.Shortest

structure Decimal where
  digits : Nat
  exponent : Int

/-- The decimal on the grid of the multiples of `10 ^ exponent` that is nearest to
`mantissa * 2 ^ power` among those that read back as this value, if there is one. -/
def onGrid? (mantissa : Nat) (power : Int) (exponent : Int) : Option Decimal :=
  let numerator := mantissa * (Nat.pow 2 power.toNat * Nat.pow 10 (-exponent).toNat)
  let denominator := Nat.pow 2 (-power).toNat * Nat.pow 10 exponent.toNat
  let unit := Nat.pow 2 power.toNat * Nat.pow 10 (-exponent).toNat
  let below := if mantissa = Nat.pow 2 52 ∧ -1074 < power then unit else 2 * unit
  let least := 4 * numerator - below
  let greatest := 4 * numerator + 2 * unit
  let readsBack (digits : Nat) : Bool :=
    let scaled := 4 * digits * denominator
    if mantissa % 2 = 0 then least ≤ scaled && scaled ≤ greatest
    else least < scaled && scaled < greatest
  let lower := numerator / denominator
  let upper := lower + 1
  let toLower := 2 * (numerator - lower * denominator)
  let lowerIsNearer : Bool :=
    toLower < denominator || (toLower == denominator && lower % 2 == 0)
  match readsBack lower, readsBack upper with
  | true, true => some ⟨if lowerIsNearer then lower else upper, exponent⟩
  | true, false => some ⟨lower, exponent⟩
  | false, true => some ⟨upper, exponent⟩
  | false, false => none

/-- The first hit on the grids below `10 ^ (exponent + 1)`, from coarse to fine. -/
def fromGrid (mantissa : Nat) (power : Int) : Nat → Int → Option Decimal
  | 0, _ => none
  | grids + 1, exponent =>
    match onGrid? mantissa power exponent with
    | some decimal => some decimal
    | none => fromGrid mantissa power grids (exponent - 1)

/-- The shortest decimal for a positive value: the coarsest grid of powers of ten
that has a decimal for it gives the fewest digits. -/
def decimal (mantissa : Nat) (power : Int) : Decimal :=
  (fromGrid mantissa power 660 310).getD ⟨0, 0⟩

def layout (decimal : Decimal) : Text :=
  let digits := Numeral.natural decimal.digits
  let point : Int := digits.length + decimal.exponent
  if -4 < point ∧ point ≤ 16 then
    if point ≤ 0 then
      '0' :: '.' :: List.replicate (-point).toNat '0' ++ digits
    else if digits.length ≤ point.toNat then
      digits ++ List.replicate (point.toNat - digits.length) '0' ++ ['.', '0']
    else digits.take point.toNat ++ '.' :: digits.drop point.toNat
  else
    let shown := Numeral.natural (point - 1).natAbs
    let fraction := if digits.length = 1 then [] else '.' :: digits.drop 1
    digits.take 1 ++ fraction ++ 'e' :: (if point - 1 < 0 then '-' else '+') ::
      List.replicate (2 - shown.length) '0' ++ shown

end Lexeme.Shortest

namespace Lexeme.Binary64

def text : Binary64 → Text
  | notANumber => ['n', 'a', 'n']
  | infinite negative => if negative then ['-', 'i', 'n', 'f'] else ['i', 'n', 'f']
  | finite negative mantissa exponent =>
    let magnitude :=
      if mantissa = 0 then ['0', '.', '0'] else Shortest.layout (Shortest.decimal mantissa exponent)
    if negative then '-' :: magnitude else magnitude

end Lexeme.Binary64
