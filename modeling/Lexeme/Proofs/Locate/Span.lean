import Lexeme.Locate

/-!
# Spans

The text of a mark is read through a handle, but neither depends on the handle's position nor
changes it: it is a function of the contents of the source. That function is stated here
without a handle, together with the two cases in which there is something to read: a span
that ends inside the source, and a last one that starts inside it.
-/

namespace Lexeme

/-- The bytes of a source from an offset on, up to another one if there is one. -/
def sourceBytes (source : Bytes) (offset : Int) (stop : Option Int) : Bytes :=
  match stop with
  | none => source.drop offset.toNat
  | some stop => (source.drop offset.toNat).take (stop - offset).toNat

theorem Source.seekRefusal?_eq_none {offset : Int} (nonneg : 0 ≤ offset)
    (addressable : offset ≤ Source.maxIndex) : Source.seekRefusal? offset = none := by
  have bound : Source.maxIndex = 0x7fffffffffffffff := rfl
  rw [Source.seekRefusal?, if_neg (by omega), if_neg (by omega)]

namespace Mark

/-- The bytes that a mark stands for, given all bytes from its offset on, or why there are
none. -/
def spanFrom (mark : Mark) (stop : Option Int) (rest : Bytes) : Except Failure Bytes :=
  match stop with
  | none => if rest = [] then .error (.fault (.lastSpanEmpty mark)) else .ok rest
  | some stop =>
    if stop < mark.offset then .error (Fault.spanNegative mark stop).raised
    else if Source.maxIndex < stop - mark.offset then .error (.refusal .lengthTooLarge)
    else if (rest.length : Int) < stop - mark.offset then
      .error (.fault (.spanCutShort mark stop rest.length))
    else .ok (rest.take (stop - mark.offset).toNat)

/-- The bytes of a source's contents that a mark stands for, or why there are none. -/
def span (mark : Mark) (stop : Option Int) (contents : Bytes) : Except Failure Bytes :=
  match Source.seekRefusal? mark.offset with
  | some refusal => .error (.refusal refusal)
  | none => mark.spanFrom stop (contents.drop mark.offset.toNat)

def textIn (mark : Mark) (stop : Option Int) (encoding : Text) (contents : Bytes) :
    Except Failure Text :=
  (mark.span stop contents).bind (mark.decodeSpan encoding)

theorem contents_readBytes (mark : Mark) (stop : Option Int) (source : Source) :
    (mark.readBytes stop source).2.contents = source.contents := by
  unfold readBytes Source.read
  split
  · simp only [Option.any_none, Bool.false_eq_true, if_false]
    split <;> rfl
  · simp only
    split
    · rfl
    · split
      · rfl
      · rename_i read
        split at read
        · contradiction
        · cases read
          split <;> rfl

theorem readBytes_fst (mark : Mark) (stop : Option Int) (source : Source) :
    (mark.readBytes stop source).1 =
      mark.spanFrom stop (source.contents.drop source.position) := by
  cases stop with
  | none =>
      simp only [readBytes, spanFrom, Source.read, Option.any_none, Bool.false_eq_true, if_false,
        Source.available, List.isEmpty_iff]
      split <;> rfl
  | some stop =>
      by_cases negative : stop < mark.offset
      · have lengthNegative : stop - mark.offset < 0 := by omega
        simp only [readBytes, spanFrom, if_pos negative, if_pos lengthNegative]
      · have lengthNonneg : ¬stop - mark.offset < 0 := by omega
        have notBelow : ¬stop - mark.offset < -Source.maxIndex - 1 := by
          simp only [Source.maxIndex]
          omega
        by_cases large : Source.maxIndex < stop - mark.offset
        · simp [readBytes, spanFrom, Source.read, negative, lengthNonneg, large]
        · -- What is left is the comparison of the bytes read with the bytes asked for.
          simp only [readBytes, spanFrom, Source.read, Source.available, Option.any_some, negative,
            lengthNonneg, large, notBelow, or_self, decide_false, Bool.false_eq_true, if_false,
            List.length_take]
          by_cases short :
              ((source.contents.drop source.position).length : Int) < stop - mark.offset
          · rw [if_pos short, if_neg (by omega), Nat.min_eq_right (by omega)]
          · rw [if_neg short, if_pos (by omega)]

/-- A span that ends where some bytes of the contents do gives these bytes. -/
theorem span_inside {mark : Mark} {before bytes after : Bytes} {stop : Int}
    (starts : mark.offset = before.length) (stops : stop = before.length + bytes.length)
    (addressable : stop ≤ Source.maxIndex) :
    mark.span (some stop) (before ++ bytes ++ after) = .ok bytes := by
  have length : stop - mark.offset = bytes.length := by omega
  have rest : (before ++ bytes ++ after).drop mark.offset.toNat = bytes ++ after := by
    rw [starts, Int.toNat_natCast, List.append_assoc, List.drop_left]
  rw [span, Source.seekRefusal?_eq_none (by omega) (by omega)]
  simp only [rest, spanFrom, length, List.length_append, Int.toNat_natCast, List.take_left]
  rw [if_neg (by omega), if_neg (by omega), if_neg (by omega)]

/-- A last span gives all bytes from its start on, if there are any. -/
theorem span_last {mark : Mark} {before bytes : Bytes} (starts : mark.offset = before.length)
    (addressable : mark.offset ≤ Source.maxIndex) (nonempty : bytes ≠ []) :
    mark.span none (before ++ bytes) = .ok bytes := by
  have rest : (before ++ bytes).drop mark.offset.toNat = bytes := by
    rw [starts, Int.toNat_natCast, List.drop_left]
  rw [span, Source.seekRefusal?_eq_none (by omega) addressable]
  simp only [rest, spanFrom]
  rw [if_neg nonempty]

/-- A last span is what is left of the contents, if there is anything left. -/
theorem span_none {mark : Mark} {contents : Bytes} (nonneg : 0 ≤ mark.offset)
    (addressable : mark.offset ≤ Source.maxIndex) :
    mark.span none contents =
      if (contents.length : Int) ≤ mark.offset then .error (.fault (.lastSpanEmpty mark))
      else .ok (sourceBytes contents mark.offset none) := by
  have nothingLeft : contents.drop mark.offset.toNat = [] ↔
      (contents.length : Int) ≤ mark.offset := by
    rw [List.drop_eq_nil_iff]
    omega
  simp only [span, Source.seekRefusal?_eq_none nonneg addressable, spanFrom, sourceBytes,
    nothingLeft]

/-- Any other span is all bytes up to its end, if that is not behind the contents. -/
theorem span_some {mark : Mark} {stop : Int} {contents : Bytes} (nonneg : 0 ≤ mark.offset)
    (before : mark.offset < stop) (addressable : stop ≤ Source.maxIndex) :
    mark.span (some stop) contents =
      if (contents.length : Int) < stop then
        .error (.fault (.spanCutShort mark stop (contents.length - mark.offset.toNat)))
      else .ok (sourceBytes contents mark.offset (some stop)) := by
  have short : ((contents.length - mark.offset.toNat : Nat) : Int) < stop - mark.offset ↔
      (contents.length : Int) < stop := by
    omega
  rw [span, Source.seekRefusal?_eq_none nonneg (by omega)]
  simp only [spanFrom, List.length_drop, short, sourceBytes]
  rw [if_neg (by omega), if_neg (by omega)]

/-- A span that ends inside the contents is all bytes up to its end, if there are any at all. -/
theorem span_within {mark : Mark} {stop : Int} {contents : Bytes} (nonneg : 0 ≤ mark.offset)
    (ordered : mark.offset ≤ stop) (inside : stop ≤ contents.length)
    (addressable : stop ≤ Source.maxIndex) :
    mark.span (some stop) contents = .ok (sourceBytes contents mark.offset (some stop)) := by
  rw [span, Source.seekRefusal?_eq_none nonneg (by omega)]
  simp only [spanFrom, List.length_drop, sourceBytes]
  rw [if_neg (by omega), if_neg (by omega), if_neg (by omega)]

theorem eq_of_span {mark : Mark} {stop : Option Int} {contents data : Bytes}
    (read : mark.span stop contents = .ok data) :
    data = sourceBytes contents mark.offset stop := by
  rw [span] at read
  split at read
  · contradiction
  · cases stop with
    | none =>
        simp only [spanFrom] at read
        split at read
        · contradiction
        · exact (Except.ok.inj read).symm
    | some stop =>
        simp only [spanFrom] at read
        split at read
        · contradiction
        · split at read
          · contradiction
          · split at read
            · contradiction
            · exact (Except.ok.inj read).symm

end Mark

namespace Source

/-- What is read does not depend on where the handle is, and the handle stays there. -/
theorem readSpan_eq (source : Source) (mark : Mark) (stop : Option Int) (encoding : Text) :
    source.readSpan mark stop encoding = (mark.textIn stop encoding source.contents, source) := by
  simp only [readSpan, readingAt, seek, Mark.textIn, Mark.span]
  cases seekRefusal? mark.offset with
  | some refusal => rfl
  | none =>
      have contents := mark.contents_readBytes stop ⟨source.contents, mark.offset.toNat⟩
      have bytes := mark.readBytes_fst stop ⟨source.contents, mark.offset.toNat⟩
      simp only at contents bytes ⊢
      rw [bytes, contents]

section

variable {α : Type} [ToMark α]

/-- The texts of all members of a sequence in some contents, or why there are none. -/
def readings (encoding : Text) (contents : Bytes) : List α → List (Except Failure Text)
  | [] => []
  | member :: rest =>
    (toMark member).textIn (nextOffset rest.head?) encoding contents ::
      readings encoding contents rest

theorem length_readings (encoding : Text) (contents : Bytes) (sequence : List α) :
    (readings encoding contents sequence).length = sequence.length := by
  induction sequence with
  | nil => rfl
  | cons member rest inductionHypothesis => simp [readings, inductionHypothesis]

theorem getElem?_readings (encoding : Text) (contents : Bytes) (sequence : List α)
    (index : Nat) :
    (readings encoding contents sequence)[index]? = sequence[index]?.map fun member =>
      (toMark member).textIn (nextOffset sequence[index + 1]?) encoding contents := by
  induction sequence generalizing index with
  | nil => rfl
  | cons member rest inductionHypothesis =>
      cases index with
      | zero => simp [readings, List.head?_eq_getElem?]
      | succ index => simpa [readings] using inductionHypothesis index

/-- Where every member has a text, these texts are what reading them in order gives. -/
theorem texts_of_readings {source : Source} {encoding : Text} {sequence : List α}
    {texts : List Text}
    (read : readings encoding source.contents sequence = texts.map .ok) :
    source.texts encoding sequence = (⟨sequence.zip texts, none⟩, source) := by
  induction sequence generalizing texts with
  | nil =>
      cases texts with
      | nil => rfl
      | cons text texts => simp [readings] at read
  | cons member rest inductionHypothesis =>
      cases texts with
      | nil => simp [readings] at read
      | cons text texts =>
          simp only [readings, List.map_cons, List.cons.injEq] at read
          rw [Source.texts, readSpan_eq, read.1]
          simp only [inductionHypothesis read.2]
          rfl

end

end Source

end Lexeme
