import Lexeme.Encoding.Basic
import Lexeme.Proofs.Encoding.Utf8
import Mathlib.Data.List.Basic

/-!
# Data cut next to ASCII

In an encoding that keeps ASCII, a byte below 128 is always a character by itself. So data may be
cut next to such a byte: its parts can be decoded exactly if the whole can, and their texts make
up the whole text. In particular no cut of this kind falls into a character.
-/

namespace Lexeme

/-- Whether the data may be cut between two parts: on one side of the cut there is an ASCII byte or
nothing at all. -/
def IsSafeCut (front rest : Bytes) : Prop :=
  (∀ byte ∈ front.getLast?, byte.toNat < 0x80) ∨ ∀ byte ∈ rest.head?, byte.toNat < 0x80

variable {front rest data : Bytes} {text : Text}

theorem IsSafeCut.of_append {before : Bytes} (safe : IsSafeCut (before ++ front) rest) :
    IsSafeCut front rest := by
  rcases safe with frontAscii | restAscii
  · left
    intro byte byteLast
    apply frontAscii
    rw [List.getLast?_append, byteLast]
    rfl
  · exact Or.inr restAscii

namespace Utf8

/-- No safe cut falls into a character. -/
theorem eq_nil_of_isSafeCut {c : Char} {after : Bytes} (split : encodeChar c = front ++ after)
    (safe : IsSafeCut front (after ++ rest)) : front = [] ∨ after = [] := by
  by_contra inside
  rw [not_or] at inside
  rcases encodeChar_single_or_high c with ⟨byte, single, _⟩ | high
  · have frontSize := List.length_pos_iff.mpr inside.1
    have afterSize := List.length_pos_iff.mpr inside.2
    have size := congrArg List.length split
    rw [single, List.length_singleton, List.length_append] at size
    omega
  · rw [split, List.forall_mem_append] at high
    rcases safe with frontAscii | restAscii
    · have ascii := frontAscii _ (List.getLast?_eq_getLast_of_ne_nil inside.1)
      have notAscii := high.1 _ (List.getLast_mem inside.1)
      omega
    · rw [List.head?_append_of_ne_nil _ inside.2] at restAscii
      have ascii := restAscii _ (List.head?_eq_some_head inside.2)
      have notAscii := high.2 _ (List.head_mem inside.2)
      omega

/-- Where the form of a text is cut safely, the text is cut as well. -/
theorem exists_append_of_encode (safe : IsSafeCut front rest)
    (split : encode text = front ++ rest) :
    ∃ first second, text = first ++ second ∧ encode first = front ∧ encode second = rest := by
  induction text generalizing front with
  | nil =>
      rw [encode_nil, List.nil_eq, List.append_eq_nil_iff] at split
      exact ⟨[], [], rfl, split.1.symm, split.2.symm⟩
  | cons c text inductionHypothesis =>
      rw [encode_cons, List.append_eq_append_iff] at split
      -- The cut lies somewhere behind the first character, or in it.
      rcases split with ⟨before, rfl, others⟩ | ⟨after, inside, rfl⟩
      · rcases inductionHypothesis safe.of_append others with ⟨first, second, rfl, rfl, rfl⟩
        exact ⟨c :: first, second, rfl, rfl, rfl⟩
      · rcases eq_nil_of_isSafeCut inside safe with rfl | rfl
        · exact ⟨[], c :: text, rfl, rfl, by rw [encode_cons, inside, List.nil_append]⟩
        · exact ⟨[c], text, rfl, by simpa using inside, rfl⟩

theorem decode_append_eq_ok_iff (safe : IsSafeCut front rest) :
    decode (front ++ rest) = .ok text ↔
      ∃ first second, decode front = .ok first ∧ decode rest = .ok second ∧
        text = first ++ second := by
  simp only [decode_eq_ok_iff]
  constructor
  · intro joined
    rcases exists_append_of_encode safe joined.symm with ⟨first, second, rfl, rfl, rfl⟩
    exact ⟨first, second, rfl, rfl, rfl⟩
  · rintro ⟨first, second, rfl, rfl, rfl⟩
    exact (encode_append first second).symm

end Utf8

namespace SingleByte

variable {table : UInt8 → Option Char} {defect : Defect} {position : Nat}

theorem decodeFrom_eq_ok_iff :
    decodeFrom table defect position data = .ok text ↔ data.map table = text.map some := by
  induction data generalizing position text with
  | nil =>
      rw [decodeFrom, List.map_nil, List.nil_eq, List.map_eq_nil_iff, Except.ok.injEq]
      exact eq_comm
  | cons byte data inductionHypothesis =>
      rw [decodeFrom, List.map_cons]
      cases table byte with
      | none => cases text <;> simp
      | some c =>
          simp only [Except.map_eq_ok_iff, inductionHypothesis]
          constructor
          · rintro ⟨others, decoded, rfl⟩
            rw [decoded, List.map_cons]
          · intro decoded
            cases text with
            | nil => contradiction
            | cons first others =>
                rw [List.map_cons, List.cons.injEq, Option.some.injEq] at decoded
                exact ⟨others, decoded.2, by rw [decoded.1]⟩

theorem decodeFrom_append_eq_ok_iff :
    decodeFrom table defect position (front ++ rest) = .ok text ↔
      ∃ first second, decodeFrom table defect position front = .ok first ∧
        decodeFrom table defect position rest = .ok second ∧ text = first ++ second := by
  simp only [decodeFrom_eq_ok_iff, List.map_append]
  constructor
  · intro joined
    rcases List.map_eq_append_iff.mp joined.symm with ⟨first, second, rfl, firstRead, secondRead⟩
    exact ⟨first, second, firstRead.symm, secondRead.symm, rfl⟩
  · rintro ⟨first, second, firstRead, secondRead, rfl⟩
    rw [firstRead, secondRead, List.map_append]

end SingleByte

namespace Encoding

/-- Data that is cut safely is decoded part by part. -/
theorem decode_append_eq_ok_iff {encoding : Encoding}
    (compatible : encoding.isAsciiCompatible = true) (safe : IsSafeCut front rest) :
    encoding.decode (front ++ rest) = .ok text ↔
      ∃ first second, encoding.decode front = .ok first ∧ encoding.decode rest = .ok second ∧
        text = first ++ second := by
  cases encoding with
  | utf8 => exact Utf8.decode_append_eq_ok_iff safe
  | ascii => exact SingleByte.decodeFrom_append_eq_ok_iff
  | latin1 => exact SingleByte.decodeFrom_append_eq_ok_iff
  | cp1252 => exact SingleByte.decodeFrom_append_eq_ok_iff
  | markedUtf8 => contradiction
  | utf16 order => contradiction

end Encoding

end Lexeme
