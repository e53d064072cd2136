import Lexeme.Datum
import Lexeme.Toml.Quoted

/-!
# Dates and times of configuration files

A date is written as year, month and day, a time as hours, minutes, seconds and possibly a
fraction of a second. A date may be followed by a time, and the two by a distance from
universal time. Digits of a fraction after the sixth are left out.
-/

namespace Lexeme.Toml

/-- The number that exactly `count` digits at the start of a text stand for. -/
def takeFixed? (count : Nat) (text : Text) : Option (Nat × Text) :=
  let digits := text.take count
  if digits.length = count ∧ digits.all Char.isDigit then
    some (Numeral.value 10 digits, text.drop count)
  else none

def dropChar? (c : Char) : Text → Option Text
  | d :: rest => if d = c then some rest else none
  | [] => none

def takeHourMinute? (text : Text) : Option ((Nat × Nat) × Text) := do
  let (hour, rest) ← takeFixed? 2 text
  let rest ← dropChar? ':' rest
  let (minute, rest) ← takeFixed? 2 rest
  if hour < 24 ∧ minute < 60 then some ((hour, minute), rest) else none

def takeMicroseconds : Text → Nat × Text
  | '.' :: rest =>
    let digits := rest.takeWhile Char.isDigit
    if digits.isEmpty then (0, '.' :: rest)
    else
      let shown := digits.take 6
      (Numeral.value 10 shown * Nat.pow 10 (6 - shown.length), rest.drop digits.length)
  | text => (0, text)

def takeTime? (text : Text) : Option (ClockTime × Text) := do
  let ((hour, minute), rest) ← takeHourMinute? text
  let rest ← dropChar? ':' rest
  let (second, rest) ← takeFixed? 2 rest
  if second < 60 then
    let (microsecond, rest) := takeMicroseconds rest
    some (⟨hour, minute, second, microsecond⟩, rest)
  else none

/-- The form of a date, if one starts here. The day need not exist in its month. -/
def takeDate? (text : Text) : Option (CalendarDate × Text) := do
  let (year, rest) ← takeFixed? 4 text
  let rest ← dropChar? '-' rest
  let (month, rest) ← takeFixed? 2 rest
  let rest ← dropChar? '-' rest
  let (day, rest) ← takeFixed? 2 rest
  if 1 ≤ month ∧ month ≤ 12 ∧ 1 ≤ day ∧ day ≤ 31 then some (⟨year, month, day⟩, rest) else none

def daysInMonth (year month : Nat) : Nat :=
  if month = 2 then
    if year % 4 = 0 ∧ (year % 100 ≠ 0 ∨ year % 400 = 0) then 29 else 28
  else if [4, 6, 9, 11].contains month then 30
  else 31

/-- Whether a date is a day of the calendar, which starts with the year 1. -/
def isCalendarDay (day : CalendarDate) : Bool :=
  1 ≤ day.year && day.day ≤ daysInMonth day.year day.month

def takeZone (text : Text) : Option Int × Text :=
  match text with
  | c :: rest =>
    if c = 'Z' ∨ c = 'z' then (some 0, rest)
    else if c = '+' ∨ c = '-' then
      match takeHourMinute? rest with
      | some ((hour, minute), behind) =>
        let minutes : Int := hour * 60 + minute
        (some (if c = '-' then -minutes else minutes), behind)
      | none => (none, text)
    else (none, text)
  | [] => (none, text)

def readMoment? (text : Text) : Option (Except Problem (Datum × Text)) := do
  let (day, rest) ← takeDate? text
  let clock? := match rest with
    | c :: behind => if c = 'T' ∨ c = 't' ∨ c = ' ' then takeTime? behind else none
    | [] => none
  match clock? with
  | none => some (if isCalendarDay day then .ok (.date day, rest) else .error .malformed)
  | some (clock, behind) =>
    let (zone, behind) := takeZone behind
    some (if isCalendarDay day then .ok (.moment day clock zone, behind) else .error .malformed)

def readTime? (text : Text) : Option (Datum × Text) :=
  (takeTime? text).map fun result => (.time result.1, result.2)

end Lexeme.Toml
