import Lexeme.Diagnostic
import Lexeme.Encoding.Name

/-!
# Faults

The ways in which classifying, packing and locating tokens can go wrong, each with
what is known about it. A fault is reported as a diagnostic. Beside faults, which
concern the data, an operation can fail because the source handle refuses a request,
because the name of an encoding is useless, because a mark has no category where one
is needed, or because a number that is to be shown has no written form. The last of
these also happens to faults: one that cannot be told is not raised.
-/

namespace Lexeme

/-- What is wrong with words, tokens, packed tokens or source bytes. -/
inductive Fault
  | notInGroup (word : Text) (group : Group) (offset : Int)
  | notCategory (offset : Datum) (value : Datum)
  | offsetNotInteger (offset : Datum) (category : Category)
  | offsetOutOfRange (token : Token)
  | recordLength (data : Bytes)
  | unknownOrdinal (data : Bytes) (offset ordinal : Nat)
  | partialRecord (length : Nat) (trailing : Bytes)
  | tokenAbsent (token : Token)
  | lastSpanEmpty (mark : Mark)
  | spanNegative (mark : Mark) (stop : Int)
  | spanCutShort (mark : Mark) (stop : Int) (available : Nat)
  | outOfOrder (previous offset : Int)
  | undecodable (data : Bytes) (offset : Int) (encoding : Text) (defect : Defect)

namespace Fault

/-- How a fault is reported, if it can be told at all. -/
def diagnostic : Fault → Diagnostic
  | notInGroup word group offset => .miss word group (.int offset)
  | notCategory offset value =>
    .draft ("not a token category: " ++ value.literalString) ⟨offset, .other value⟩
  | offsetNotInteger offset category =>
    .draft ("offset must be an integer, got " ++ offset.typeName) ⟨offset, .known category⟩
  | offsetOutOfRange token =>
    .draft ("offset " ++ Numeral.integerString token.offset ++ " does not fit in 32 bits")
      token.toDraft
  | recordLength data =>
    .packed ("packed token must be 5 bytes, got " ++ Numeral.integerString data.length) data .null
  | unknownOrdinal data offset ordinal =>
    .packed ("unknown category ordinal " ++ Numeral.integerString ordinal) data (.int offset)
  | partialRecord length trailing =>
    .packed ("token buffer length " ++ Numeral.integerString length ++
      " is not a multiple of 5") trailing .null
  | tokenAbsent token => .absent token.category (.int token.offset)
  | lastSpanEmpty mark =>
    .span ("source ended before last token at offset " ++ Numeral.integerString mark.offset)
      mark.toDraft .null
  | spanNegative mark stop =>
    .span ("token at offset " ++ Numeral.integerString mark.offset ++
      " ends before it starts (next offset " ++ Numeral.integerString stop ++ ")")
      mark.toDraft (.int stop)
  | spanCutShort mark stop available =>
    .span ("source ended after " ++ Numeral.integerString available ++ " of " ++
      Numeral.integerString (stop - mark.offset) ++ " bytes for token at offset " ++
      Numeral.integerString mark.offset) mark.toDraft (.int stop)
  | outOfOrder previous offset => .order (.int previous) (.int offset)
  | undecodable data offset encoding defect =>
    .source data (.int offset) encoding defect.message

/-- The values that are written out to tell a fault, in its message and as its place. -/
def shown : Fault → List Datum
  | notInGroup _ _ offset => [.int offset]
  | notCategory offset value => value :: if offset.isPosition then [offset] else []
  | offsetNotInteger offset _ => if offset.isPosition then [offset] else []
  | offsetOutOfRange token => [.int token.offset]
  | recordLength data => [.int data.length]
  | unknownOrdinal _ offset ordinal => [.int ordinal, .int offset]
  | partialRecord length _ => [.int length]
  | tokenAbsent token => [.int token.offset]
  | lastSpanEmpty mark => [.int mark.offset]
  | spanNegative mark stop => [.int mark.offset, .int stop]
  | spanCutShort mark stop available =>
    [.int available, .int (stop - mark.offset), .int mark.offset]
  | outOfOrder previous offset => [.int offset, .int previous]
  | undecodable _ offset _ _ => [.int offset]

/-- Whether everything that tells a fault can be written. -/
def IsTellable (fault : Fault) : Prop :=
  ∀ value ∈ fault.shown, value.holdsLongInteger = false

instance (fault : Fault) : Decidable fault.IsTellable :=
  inferInstanceAs (Decidable (∀ value ∈ fault.shown, value.holdsLongInteger = false))

end Fault

inductive Refusal
  | negativeOffset (offset : Int)
  | offsetTooLarge
  | lengthTooLarge

def Refusal.message : Refusal → String
  | negativeOffset offset => "negative seek value " ++ Numeral.integerString offset
  | offsetTooLarge => "Python int too large to convert to C ssize_t"
  | lengthTooLarge => "cannot fit 'int' into an index-sized integer"

inductive Failure
  | fault (fault : Fault)
  | refusal (refusal : Refusal)
  | name (problem : NameProblem)
  | label (problem : LabelProblem)
  /-- A number that is to be shown has no written form. -/
  | numberTooLong

/-- What comes of a fault: it is told when it is raised. The faults of bytes in memory, and
of places in them, can always be told. -/
def Fault.raised (fault : Fault) : Failure :=
  if fault.IsTellable then .fault fault else .numberTooLong

theorem Fault.raised_of_isTellable {fault : Fault} (tellable : fault.IsTellable) :
    fault.raised = .fault fault :=
  if_pos tellable

/-- Why a mark cannot be found in a sequence. To say which mark it is, its category is
needed. -/
def Failure.absent (mark : Mark) : Failure :=
  match mark.token with
  | .ok token => (Fault.tokenAbsent token).raised
  | .error value => .label (.nameless value)

theorem Failure.absent_toMark (token : Token) :
    Failure.absent (toMark token) = (Fault.tokenAbsent token).raised := rfl

/-- The first items of a sequence that is produced one by one, and why it stopped
early if it did. -/
structure Partial (α : Type) where
  items : List α
  failure : Option Failure

namespace Partial

def done {α : Type} : Partial α := ⟨[], none⟩

def failed {α : Type} (failure : Failure) : Partial α := ⟨[], some failure⟩

def cons {α : Type} (item : α) (rest : Partial α) : Partial α :=
  ⟨item :: rest.items, rest.failure⟩

@[simp]
theorem items_cons {α : Type} (item : α) (rest : Partial α) :
    (rest.cons item).items = item :: rest.items := rfl

@[simp]
theorem failure_cons {α : Type} (item : α) (rest : Partial α) :
    (rest.cons item).failure = rest.failure := rfl

end Partial

end Lexeme
