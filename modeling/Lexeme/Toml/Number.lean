import Lexeme.Datum
import Lexeme.Toml.Quoted

/-!
# Numbers of configuration files

Integers stand in base ten, or after `0x`, `0o` or `0b` in another base; a fraction or an
exponent makes a number floating-point. Single underscores may stand between digits. An
integer in base ten may have at most 4300 digits.
-/

namespace Lexeme.Toml

/-- The digits at the start of a text, each with at most one underscore before it. -/
def takeDigits (isDigit : Char → Bool) : Text → Text × Text
  | '_' :: c :: rest =>
    if isDigit c then
      let (digits, behind) := takeDigits isDigit rest
      (c :: digits, behind)
    else ([], '_' :: c :: rest)
  | c :: rest =>
    if isDigit c then
      let (digits, behind) := takeDigits isDigit rest
      (c :: digits, behind)
    else ([], c :: rest)
  | [] => ([], [])

/-- One digit or more at the start of a text, where the first has no underscore before
it. -/
def takeNumeral? (isDigit : Char → Bool) : Text → Option (Text × Text)
  | c :: rest =>
    if isDigit c then
      let (digits, behind) := takeDigits isDigit rest
      some (c :: digits, behind)
    else none
  | [] => none

def isDigitOf (base : Nat) (c : Char) : Bool :=
  (Numeral.digitValue? base c).isSome

def readRadix? : Text → Option (Datum × Text)
  | '0' :: letter :: rest => do
    let base ← match letter with
      | 'x' => some 16
      | 'o' => some 8
      | 'b' => some 2
      | _ => none
    let (digits, behind) ← takeNumeral? (isDigitOf base) rest
    pure (.int (Numeral.value base digits), behind)
  | _ => none

/-- A sign at the start of a text: whether it is a minus, and the text behind it. -/
def takeSign : Text → Bool × Text
  | '-' :: rest => (true, rest)
  | '+' :: rest => (false, rest)
  | text => (false, text)

/-- The whole part of a number: a zero alone, or digits that start with another one. -/
def takeWhole? : Text → Option (Text × Text)
  | '0' :: rest => some (['0'], rest)
  | text => takeNumeral? (isDigitOf 10) text

def takeFraction? : Text → Option (Text × Text)
  | '.' :: rest => takeNumeral? (isDigitOf 10) rest
  | _ => none

def takeExponent? : Text → Option (Int × Text)
  | c :: rest =>
    if c = 'e' ∨ c = 'E' then do
      let (negative, unsigned) := takeSign rest
      let (digits, behind) ← takeNumeral? (isDigitOf 10) unsigned
      let magnitude : Int := Numeral.value 10 digits
      pure (if negative then -magnitude else magnitude, behind)
    else none
  | [] => none

def readDecimal? (text : Text) : Option (Except Problem (Datum × Text)) := do
  let (negative, unsigned) := takeSign text
  let (whole, rest) ← takeWhole? unsigned
  let fraction := takeFraction? rest
  let rest := (fraction.map Prod.snd).getD rest
  let exponent := takeExponent? rest
  let rest := (exponent.map Prod.snd).getD rest
  if fraction.isNone ∧ exponent.isNone then
    if Numeral.maxDigits < whole.length then some (.error (.numberTooLong whole.length))
    else
      let magnitude : Int := Numeral.value 10 whole
      some (.ok (.int (if negative then -magnitude else magnitude), rest))
  else
    let fractionDigits := (fraction.map Prod.fst).getD []
    let power := (exponent.map Prod.fst).getD 0 - fractionDigits.length
    let digits := Numeral.value 10 (whole ++ fractionDigits)
    some (.ok (.real (.ofDecimal negative digits power), rest))

/-- An infinity or the value that is not a number, if one starts here. -/
def readSpecial? (text : Text) : Option (Datum × Text) :=
  let (negative, unsigned) := takeSign text
  match unsigned with
  | 'i' :: 'n' :: 'f' :: rest => some (.real (.infinite negative), rest)
  | 'n' :: 'a' :: 'n' :: rest => some (.real .notANumber, rest)
  | _ => none

end Lexeme.Toml
