import Lexeme.Number.Shortest
import Lexeme.Text.Quoted

/-!
# Loose values

A configuration file may hold any value under any key, and a token that is handed in
may hold any value where an offset or a category is expected. Such a value is a
`Datum`. Error messages show it in the notation of literals: texts quoted, lists in
brackets, tables in braces.
-/

namespace Lexeme

structure CalendarDate where
  year : Nat
  month : Nat
  day : Nat
  deriving DecidableEq

structure ClockTime where
  hour : Nat
  minute : Nat
  second : Nat
  microsecond : Nat
  deriving DecidableEq

/-- A value of no particular type. -/
inductive Datum
  | null
  | bool (value : Bool)
  | int (value : Int)
  | real (value : Binary64)
  | text (value : Text)
  | list (items : List Datum)
  | table (entries : List (Text × Datum))
  | date (day : CalendarDate)
  | time (clock : ClockTime)
  /-- A moment, with its distance from universal time in minutes if it is known. -/
  | moment (day : CalendarDate) (clock : ClockTime) (zone : Option Int)

namespace Datum

/-- The word for a value's type in messages. -/
def typeName : Datum → String
  | null => "NoneType"
  | bool _ => "bool"
  | int _ => "int"
  | real _ => "float"
  | text _ => "str"
  | list _ => "list"
  | table _ => "dict"
  | date _ => "date"
  | time _ => "time"
  | moment .. => "datetime"

def numerals (numbers : List Nat) : Text :=
  Text.joinWith [',', ' '] (numbers.map Numeral.natural)

/-- The parts of a time of the day that a literal shows: seconds and microseconds are
left off at the end while they are zero. -/
def clockParts (clock : ClockTime) : List Nat :=
  [clock.hour, clock.minute] ++
    if clock.microsecond ≠ 0 then [clock.second, clock.microsecond]
    else if clock.second ≠ 0 then [clock.second]
    else []

/-- The literal of a distance from universal time in minutes. A negative one counts
from the day before. -/
def zoneLiteral (minutes : Int) : Text :=
  if minutes = 0 then "datetime.timezone.utc".toList
  else
    let seconds := Numeral.integer (minutes % 1440 * 60)
    let days := if minutes < 0 then "days=-1, ".toList else []
    "datetime.timezone(datetime.timedelta(".toList ++ days ++ "seconds=".toList ++ seconds
      ++ "))".toList

mutual

def literal : Datum → Text
  | null => "None".toList
  | bool true => "True".toList
  | bool false => "False".toList
  | int n => Numeral.integer n
  | real x => x.text
  | text t => Quoted.encode t
  | list items => '[' :: Text.joinWith [',', ' '] (literals items) ++ [']']
  | table entries => '\x7b' :: Text.joinWith [',', ' '] (entryLiterals entries) ++ ['\x7d']
  | date day =>
    "datetime.date(".toList ++ numerals [day.year, day.month, day.day] ++ [')']
  | time clock => "datetime.time(".toList ++ numerals (clockParts clock) ++ [')']
  | moment day clock zone =>
    let zonePart := match zone with
      | none => []
      | some minutes => ", tzinfo=".toList ++ zoneLiteral minutes
    "datetime.datetime(".toList
      ++ numerals ([day.year, day.month, day.day] ++ clockParts clock) ++ zonePart ++ [')']

def literals : List Datum → List Text
  | [] => []
  | item :: items => literal item :: literals items

def entryLiterals : List (Text × Datum) → List Text
  | [] => []
  | (key, value) :: entries =>
    (Quoted.encode key ++ ':' :: ' ' :: literal value) :: entryLiterals entries

end

def literalString (value : Datum) : String :=
  String.ofList value.literal

mutual

/-- Whether a value has no literal, since an integer in it has no written form. -/
def holdsLongInteger : Datum → Bool
  | int n => !decide (Numeral.IsWritable n)
  | list items => anyHoldsLongInteger items
  | table entries => anyEntryHoldsLongInteger entries
  | _ => false

def anyHoldsLongInteger : List Datum → Bool
  | [] => false
  | item :: items => holdsLongInteger item || anyHoldsLongInteger items

def anyEntryHoldsLongInteger : List (Text × Datum) → Bool
  | [] => false
  | (_, value) :: entries => holdsLongInteger value || anyEntryHoldsLongInteger entries

end

@[simp]
theorem holdsLongInteger_int {n : Int} :
    (int n).holdsLongInteger = false ↔ Numeral.IsWritable n := by
  simp [holdsLongInteger]

/-- A value as it stands in running text: a text without quotes, all else as a literal. -/
def plain : Datum → String
  | text t => String.ofList t
  | other => other.literalString

/-- Whether a value counts as an integer position. The two truth values do. -/
def isPosition : Datum → Bool
  | int _ | bool _ => true
  | _ => false

/-- The integer that a value counts as, if any. The truth values count as one and zero. -/
def integer? : Datum → Option Int
  | int n => some n
  | bool value => some (if value then 1 else 0)
  | real x => x.integer?
  | _ => none

mutual

/-- Whether two values say the same. Numbers do if they are one number, whatever their types;
lists do item by item, and tables entry by entry in any order. -/
def agrees : Datum → Datum → Bool
  | null, null => true
  | text s, text t => s == t
  | list items, list others => agreesAll items others
  | table entries, table others => entries.length == others.length && agreesIn entries others
  | date day, date other => day == other
  | time clock, time other => clock == other
  | moment day clock zone, moment otherDay otherClock otherZone =>
    day == otherDay && clock == otherClock && zone == otherZone
  | value, other =>
    match value.integer?, other.integer? with
    | some n, some m => n == m
    | none, none =>
      match value, other with
      | real x, real y => x == y
      | _, _ => false
    | _, _ => false

def agreesAll : List Datum → List Datum → Bool
  | [], [] => true
  | item :: items, other :: others => agrees item other && agreesAll items others
  | _, _ => false

/-- Whether entries are all found among those of another table. -/
def agreesIn : List (Text × Datum) → List (Text × Datum) → Bool
  | [], _ => true
  | (key, value) :: entries, others =>
    (match others.lookup key with
      | some other => agrees value other
      | none => false) && agreesIn entries others

end

instance : BEq Datum := ⟨agrees⟩

end Datum

end Lexeme
