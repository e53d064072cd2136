import Lexeme.Text.Numeral
import Lexeme.Text.Printable

/-!
# Quoted text

A text is shown between quotes so that no part of it can be taken for anything
around it: the quotes are double when the text holds a single quote and no double
one, otherwise single; the quote itself and the backslash are escaped, and so is
every character without a visible form, in the shortest of four ways that can
name it.
-/

namespace Lexeme.Quoted

def delimiter (text : Text) : Char :=
  if text.contains '\'' && !text.contains '"' then '"' else '\''

/-- A character as it stands between the quotes `quote`. -/
def escape (quote : Char) (c : Char) : Text :=
  if c = quote ∨ c = '\\' then ['\\', c]
  else if c = '\n' then ['\\', 'n']
  else if c = '\r' then ['\\', 'r']
  else if c = '\t' then ['\\', 't']
  else if Printable.isPrintable c then [c]
  else if c.toNat < 0x100 then '\\' :: 'x' :: Numeral.hexadecimal 2 c.toNat
  else if c.toNat < 0x10000 then '\\' :: 'u' :: Numeral.hexadecimal 4 c.toNat
  else '\\' :: 'U' :: Numeral.hexadecimal 8 c.toNat

def encode (text : Text) : Text :=
  let quote := delimiter text
  quote :: text.flatMap (escape quote) ++ [quote]

end Lexeme.Quoted
