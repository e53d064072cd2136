import Lexeme.Text.Numeral

/-!
# Strings of configuration files

A string stands between single quotes, which take all up to the closing quote as it is,
or between double quotes, where a backslash starts an escape. Three quotes of either
kind open a string that may run over several lines. Control characters other than the
tab may not stand in a string, and line feeds only in one of several lines.
-/

namespace Lexeme.Toml

inductive Problem
  | malformed
  /-- A number of so many digits is not read. -/
  | numberTooLong (digits : Nat)

def isBlank (c : Char) : Bool :=
  c == ' ' || c == '\t'

/-- Whether a character may not stand in strings and comments. -/
def isControl (c : Char) : Bool :=
  c != '\t' && (c.toNat < 0x20 || c.toNat == 0x7f)

/-- The same, where line feeds are welcome. -/
def isControlInLines (c : Char) : Bool :=
  c != '\n' && isControl c

def push (c : Char) (reading : Except Problem (Text × Text)) :
    Except Problem (Text × Text) :=
  reading.map fun result => (c :: result.1, result.2)

def charOfDigits? (digits : Text) : Option Char :=
  let code := Numeral.value 16 digits
  if digits.all (fun c => (Numeral.digitValue? 16 c).isSome) ∧ code.isValidChar then
    some (Char.ofNat code)
  else none

/-- The character that a letter behind a backslash stands for. -/
def escaped? : Char → Option Char
  | 'b' => some '\x08'
  | 't' => some '\t'
  | 'n' => some '\n'
  | 'f' => some '\x0c'
  | 'r' => some '\r'
  | '"' => some '"'
  | '\\' => some '\\'
  | _ => none

/-- What is left out behind a backslash at the end of a line. -/
inductive Trimming
  | off
  /-- The rest of the line, which has to be blank. -/
  | line
  /-- Blanks and empty lines up to the next character. -/
  | lines
  deriving DecidableEq

/-- Reads a string behind its opening double quotes. -/
def readBasic (lines : Bool) : Trimming → Text → Except Problem (Text × Text)
  | _, [] => .error .malformed
  | trimming, c :: rest =>
    if trimming = .line then
      if isBlank c then readBasic lines .line rest
      else if c = '\n' then readBasic lines .lines rest
      else .error .malformed
    else if trimming = .lines ∧ (isBlank c ∨ c = '\n') then readBasic lines .lines rest
    else if c = '"' then
      if lines then
        match rest with
        | '"' :: '"' :: behind => .ok ([], behind)
        | _ => push '"' (readBasic lines .off rest)
      else .ok ([], rest)
    else if c = '\\' then
      match rest with
      | 'u' :: d1 :: d2 :: d3 :: d4 :: behind =>
        match charOfDigits? [d1, d2, d3, d4] with
        | some char => push char (readBasic lines .off behind)
        | none => .error .malformed
      | 'U' :: d1 :: d2 :: d3 :: d4 :: d5 :: d6 :: d7 :: d8 :: behind =>
        match charOfDigits? [d1, d2, d3, d4, d5, d6, d7, d8] with
        | some char => push char (readBasic lines .off behind)
        | none => .error .malformed
      | e :: behind =>
        if lines ∧ isBlank e then readBasic lines .line behind
        else if lines ∧ e = '\n' then readBasic lines .lines behind
        else
          match escaped? e with
          | some char => push char (readBasic lines .off behind)
          | none => .error .malformed
      | [] => .error .malformed
    else if if lines then isControlInLines c else isControl c then .error .malformed
    else push c (readBasic lines .off rest)

def readLiteral : Text → Except Problem (Text × Text)
  | [] => .error .malformed
  | '\'' :: rest => .ok ([], rest)
  | c :: rest => if isControl c then .error .malformed else push c (readLiteral rest)

def readLiteralLines : Text → Except Problem (Text × Text)
  | [] => .error .malformed
  | '\'' :: '\'' :: '\'' :: rest => .ok ([], rest)
  | c :: rest => if isControlInLines c then .error .malformed else push c (readLiteralLines rest)

/-- A closing delimiter of several lines may follow directly on one or two quotes that
belong to the string. -/
def takeExtraQuotes (quote : Char) (text rest : Text) : Text × Text :=
  match rest with
  | c :: d :: behind =>
    if c = quote then
      if d = quote then (text ++ [quote, quote], behind) else (text ++ [quote], d :: behind)
    else (text, rest)
  | [c] => if c = quote then (text ++ [quote], []) else (text, rest)
  | [] => (text, rest)

/-- The text behind a line feed at the start, which a string of several lines drops. -/
def dropLineFeed : Text → Text
  | '\n' :: rest => rest
  | text => text

def readString? : Text → Option (Except Problem (Text × Text))
  | '"' :: '"' :: '"' :: rest =>
    some ((readBasic true .off (dropLineFeed rest)).map fun result =>
      takeExtraQuotes '"' result.1 result.2)
  | '\'' :: '\'' :: '\'' :: rest =>
    some ((readLiteralLines (dropLineFeed rest)).map fun result =>
      takeExtraQuotes '\'' result.1 result.2)
  | '"' :: rest => some (readBasic false .off rest)
  | '\'' :: rest => some (readLiteral rest)
  | _ => none

end Lexeme.Toml
