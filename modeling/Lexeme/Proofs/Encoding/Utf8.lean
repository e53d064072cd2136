import Lexeme.Encoding.Utf8
import Lexeme.Proofs.Except

/-!
# UTF-8 has one form for each text

Data is decoded to a text exactly if it is the form of that text. So whatever holds of the bytes
of a text is known of all data that can be decoded, in particular that the bytes of a character
above 127 all lie above 127 as well.
-/

namespace Lexeme.Utf8

@[simp]
theorem encode_nil : encode [] = [] := rfl

@[simp]
theorem encode_cons (c : Char) (text : Text) : encode (c :: text) = encodeChar c ++ encode text :=
  List.flatMap_cons

@[simp]
theorem encode_append (first second : Text) :
    encode (first ++ second) = encode first ++ encode second :=
  List.flatMap_append

def IsContinuation (byte : UInt8) : Prop :=
  0x80 ≤ byte.toNat ∧ byte.toNat ≤ 0xbf

/-- The sequences of bytes that stand for characters, with the characters' numbers. The second byte
is limited so that a sequence is not longer than it has to be and stands for no surrogate. -/
inductive IsForm : Bytes → Nat → Prop
  | one {lead : UInt8} {code : Nat} (isLead : lead.toNat < 0x80) (number : code = lead.toNat) :
      IsForm [lead] code
  | two {lead second : UInt8} {code : Nat} (isLead : 0xc2 ≤ lead.toNat ∧ lead.toNat < 0xe0)
      (isSecond : IsContinuation second)
      (number : code = (lead.toNat - 0xc0) * 0x40 + (second.toNat - 0x80)) :
      IsForm [lead, second] code
  | three {lead second third : UInt8} {code : Nat}
      (isLead : 0xe0 ≤ lead.toNat ∧ lead.toNat < 0xf0) (isSecond : IsContinuation second)
      (notOverlong : lead.toNat = 0xe0 → 0xa0 ≤ second.toNat)
      (notSurrogate : lead.toNat = 0xed → second.toNat ≤ 0x9f) (isThird : IsContinuation third)
      (number : code = ((lead.toNat - 0xe0) * 0x40 + (second.toNat - 0x80)) * 0x40 +
        (third.toNat - 0x80)) :
      IsForm [lead, second, third] code
  | four {lead second third fourth : UInt8} {code : Nat}
      (isLead : 0xf0 ≤ lead.toNat ∧ lead.toNat < 0xf5) (isSecond : IsContinuation second)
      (notOverlong : lead.toNat = 0xf0 → 0x90 ≤ second.toNat)
      (notBeyond : lead.toNat = 0xf4 → second.toNat ≤ 0x8f) (isThird : IsContinuation third)
      (isFourth : IsContinuation fourth)
      (number : code = (((lead.toNat - 0xf0) * 0x40 + (second.toNat - 0x80)) * 0x40 +
        (third.toNat - 0x80)) * 0x40 + (fourth.toNat - 0x80)) :
      IsForm [lead, second, third, fourth] code

theorem ofNat_eq_byte {code : Nat} {byte : UInt8} (same : code = byte.toNat) :
    UInt8.ofNat code = byte := by
  rw [same, UInt8.ofNat_toNat]

theorem toNat_ofNat_of_valid {code : Nat} (valid : code.isValidChar) :
    (Char.ofNat code).toNat = code := by
  rw [Char.ofNat, dif_pos valid]
  rfl

/-- The bytes of a character are a sequence for its number. -/
theorem isForm_encodeChar (c : Char) : IsForm (encodeChar c) c.toNat := by
  have valid : c.toNat < 0xd800 ∨ 0xdfff < c.toNat ∧ c.toNat < 0x110000 := c.valid
  generalize number : c.toNat = code at valid
  simp only [encodeChar, number]
  split
  · apply IsForm.one <;> simp only [UInt8.toNat_ofNat'] <;> omega
  · split
    · apply IsForm.two <;> simp only [IsContinuation, UInt8.toNat_ofNat'] <;> omega
    · split
      · apply IsForm.three <;> simp only [IsContinuation, UInt8.toNat_ofNat'] <;> omega
      · apply IsForm.four <;> simp only [IsContinuation, UInt8.toNat_ofNat'] <;> omega

/-- A sequence for a number is the bytes of the character with that number. -/
theorem encodeChar_of_isForm {bytes : Bytes} {code : Nat} (form : IsForm bytes code) :
    encodeChar (Char.ofNat code) = bytes := by
  have valid : code < 0xd800 ∨ 0xdfff < code ∧ code < 0x110000 := by
    cases form with
    | one isLead number => omega
    | _ => simp only [IsContinuation] at *; omega
  simp only [encodeChar, toNat_ofNat_of_valid valid]
  cases form with
  | one isLead number =>
      rw [if_pos (by omega), ofNat_eq_byte number]
  | two isLead isSecond number =>
      rw [IsContinuation] at isSecond
      rw [if_neg (by omega), if_pos (by omega)]
      simp only [List.cons.injEq, and_true]
      exact ⟨ofNat_eq_byte (by omega), ofNat_eq_byte (by omega)⟩
  | three isLead isSecond notOverlong notSurrogate isThird number =>
      rw [IsContinuation] at isSecond isThird
      rw [if_neg (by omega), if_neg (by omega), if_pos (by omega)]
      simp only [List.cons.injEq, and_true]
      exact ⟨ofNat_eq_byte (by omega), ofNat_eq_byte (by omega), ofNat_eq_byte (by omega)⟩
  | four isLead isSecond notOverlong notBeyond isThird isFourth number =>
      rw [IsContinuation] at isSecond isThird isFourth
      rw [if_neg (by omega), if_neg (by omega), if_neg (by omega)]
      simp only [List.cons.injEq, and_true]
      exact ⟨ofNat_eq_byte (by omega), ofNat_eq_byte (by omega), ofNat_eq_byte (by omega),
        ofNat_eq_byte (by omega)⟩

theorem open?_two {lead : Nat} (isLead : 0xc2 ≤ lead ∧ lead < 0xe0) :
    open? lead = some ⟨1, 1, lead - 0xc0, 0x80, 0xbf⟩ := by
  rw [open?, if_neg (by omega), if_pos isLead.2]

theorem open?_three {lead : Nat} (isLead : 0xe0 ≤ lead ∧ lead < 0xf0) :
    open? lead = some ⟨1, 2, lead - 0xe0, if lead = 0xe0 then 0xa0 else 0x80,
      if lead = 0xed then 0x9f else 0xbf⟩ := by
  rw [open?, if_neg (by omega), if_neg (by omega), if_pos isLead.2]

theorem open?_four {lead : Nat} (isLead : 0xf0 ≤ lead ∧ lead < 0xf5) :
    open? lead = some ⟨1, 3, lead - 0xf0, if lead = 0xf0 then 0x90 else 0x80,
      if lead = 0xf4 then 0x8f else 0xbf⟩ := by
  rw [open?, if_neg (by omega), if_neg (by omega), if_neg (by omega), if_pos isLead.2]

theorem open?_eq_none {lead : Nat} (noLead : lead < 0xc2 ∨ 0xf5 ≤ lead) : open? lead = none := by
  rw [open?]
  split
  · rfl
  · rw [if_neg (by omega), if_neg (by omega), if_neg (by omega)]

/-- The bounds of a second byte that only certain lead bytes make narrower. -/
theorem second_inRange_iff {lead second : UInt8} {first last low high : Nat} (low_ge : 0x80 ≤ low)
    (high_le : high ≤ 0xbf) :
    ((if lead.toNat = first then low else 0x80) ≤ second.toNat ∧
        second.toNat ≤ if lead.toNat = last then high else 0xbf) ↔
      IsContinuation second ∧ (lead.toNat = first → low ≤ second.toNat) ∧
        (lead.toNat = last → second.toNat ≤ high) := by
  rw [IsContinuation]
  split <;> split <;> omega

variable {position : Nat} {pending : Pending} {bytes data rest : Bytes} {text : Text}

theorem decodeFrom_lead {lead : UInt8} (notAscii : 0x80 ≤ lead.toNat)
    (opened : open? lead.toNat = some pending) :
    decodeFrom position none (lead :: rest) = decodeFrom (position + 1) (some pending) rest := by
  rw [decodeFrom, if_neg (by omega), opened]

variable {seen missing bits least greatest : Nat}

theorem decodeFrom_last {byte : UInt8} (inRange : least ≤ byte.toNat ∧ byte.toNat ≤ greatest) :
    decodeFrom position (some ⟨seen, 1, bits, least, greatest⟩) (byte :: rest) =
      (decodeFrom (position + 1) none rest).map
        (Char.ofNat (bits * 0x40 + (byte.toNat - 0x80)) :: ·) := by
  rw [decodeFrom, if_pos inRange]
  rfl

theorem decodeFrom_next {byte : UInt8} (inRange : least ≤ byte.toNat ∧ byte.toNat ≤ greatest) :
    decodeFrom position (some ⟨seen, missing + 2, bits, least, greatest⟩) (byte :: rest) =
      decodeFrom (position + 1)
        (some ⟨seen + 1, missing + 1, bits * 0x40 + (byte.toNat - 0x80), 0x80, 0xbf⟩) rest := by
  rw [decodeFrom, if_pos inRange]
  rfl

/-- Decoding takes a whole sequence at once. -/
theorem decodeFrom_append {code : Nat} (form : IsForm bytes code) :
    decodeFrom position none (bytes ++ rest) =
      (decodeFrom (position + bytes.length) none rest).map (Char.ofNat code :: ·) := by
  cases form with
  | one isLead number =>
      rw [List.singleton_append, decodeFrom, if_pos isLead, number]
      rfl
  | two isLead isSecond number =>
      rw [List.cons_append, decodeFrom_lead (by omega) (open?_two isLead), List.singleton_append,
        decodeFrom_last isSecond, number]
      rfl
  | three isLead isSecond notOverlong notSurrogate isThird number =>
      rw [List.cons_append, decodeFrom_lead (by omega) (open?_three isLead), List.cons_append,
        decodeFrom_next, List.singleton_append, decodeFrom_last isThird, number]
      · rfl
      · exact (second_inRange_iff (by omega) (by omega)).mpr ⟨isSecond, notOverlong, notSurrogate⟩
  | four isLead isSecond notOverlong notBeyond isThird isFourth number =>
      rw [List.cons_append, decodeFrom_lead (by omega) (open?_four isLead), List.cons_append,
        decodeFrom_next, List.cons_append, decodeFrom_next isThird, List.singleton_append,
        decodeFrom_last isFourth, number]
      · rfl
      · exact (second_inRange_iff (by omega) (by omega)).mpr ⟨isSecond, notOverlong, notBeyond⟩

theorem exists_byte_of_pending (decoded : decodeFrom position (some pending) data = .ok text) :
    ∃ byte rest, data = byte :: rest ∧ pending.least ≤ byte.toNat ∧
      byte.toNat ≤ pending.greatest := by
  cases data with
  | nil => contradiction
  | cons byte rest =>
      rw [decodeFrom] at decoded
      split at decoded
      · next inRange => exact ⟨byte, rest, rfl, inRange⟩
      · contradiction

/-- Data that can be decoded starts with a sequence for the first character of the text. -/
theorem exists_form_of_decodeFrom {lead : UInt8}
    (decoded : decodeFrom position none (lead :: data) = .ok text) :
    ∃ bytes code rest others next, IsForm bytes code ∧ lead :: data = bytes ++ rest ∧
      decodeFrom next none rest = .ok others ∧ text = Char.ofNat code :: others := by
  rcases Nat.lt_or_ge lead.toNat 0x80 with ascii | notAscii
  · rw [decodeFrom, if_pos ascii] at decoded
    rcases Except.map_eq_ok_iff.mp decoded with ⟨others, decodedRest, rfl⟩
    exact ⟨_, _, _, _, _, .one ascii rfl, List.singleton_append.symm, decodedRest, rfl⟩
  rcases Nat.lt_or_ge lead.toNat 0xc2 with noLead | isLead
  · rw [decodeFrom, if_neg (by omega), open?_eq_none (Or.inl noLead)] at decoded
    contradiction
  rcases Nat.lt_or_ge lead.toNat 0xe0 with two | notTwo
  · rw [decodeFrom_lead notAscii (open?_two ⟨isLead, two⟩)] at decoded
    rcases exists_byte_of_pending decoded with ⟨second, rest, rfl, isSecond⟩
    rw [decodeFrom_last isSecond] at decoded
    rcases Except.map_eq_ok_iff.mp decoded with ⟨others, decodedRest, rfl⟩
    exact ⟨_, _, _, _, _, .two ⟨isLead, two⟩ isSecond rfl, rfl, decodedRest, rfl⟩
  rcases Nat.lt_or_ge lead.toNat 0xf0 with three | notThree
  · rw [decodeFrom_lead notAscii (open?_three ⟨notTwo, three⟩)] at decoded
    rcases exists_byte_of_pending decoded with ⟨second, rest, rfl, isSecond⟩
    rw [decodeFrom_next isSecond] at decoded
    rcases exists_byte_of_pending decoded with ⟨third, rest, rfl, isThird⟩
    rw [decodeFrom_last isThird] at decoded
    rcases Except.map_eq_ok_iff.mp decoded with ⟨others, decodedRest, rfl⟩
    rcases (second_inRange_iff (by omega) (by omega)).mp isSecond with
      ⟨isSecond, notOverlong, notSurrogate⟩
    exact ⟨_, _, _, _, _, .three ⟨notTwo, three⟩ isSecond notOverlong notSurrogate isThird rfl, rfl,
      decodedRest, rfl⟩
  rcases Nat.lt_or_ge lead.toNat 0xf5 with four | beyond
  · rw [decodeFrom_lead notAscii (open?_four ⟨notThree, four⟩)] at decoded
    rcases exists_byte_of_pending decoded with ⟨second, rest, rfl, isSecond⟩
    rw [decodeFrom_next isSecond] at decoded
    rcases exists_byte_of_pending decoded with ⟨third, rest, rfl, isThird⟩
    rw [decodeFrom_next isThird] at decoded
    rcases exists_byte_of_pending decoded with ⟨fourth, rest, rfl, isFourth⟩
    rw [decodeFrom_last isFourth] at decoded
    rcases Except.map_eq_ok_iff.mp decoded with ⟨others, decodedRest, rfl⟩
    rcases (second_inRange_iff (by omega) (by omega)).mp isSecond with
      ⟨isSecond, notOverlong, notBeyond⟩
    exact ⟨_, _, _, _, _,
      .four ⟨notThree, four⟩ isSecond notOverlong notBeyond isThird isFourth rfl,
      rfl, decodedRest, rfl⟩
  · rw [decodeFrom, if_neg (by omega), open?_eq_none (Or.inr beyond)] at decoded
    contradiction

/-- Data is decoded to a text exactly if it is the form of that text. -/
theorem decodeFrom_eq_ok_iff : decodeFrom position none data = .ok text ↔ data = encode text := by
  constructor
  · intro decoded
    -- The text is the one to go through: each of its characters takes several bytes of the data.
    induction text generalizing position data with
    | nil =>
        cases data with
        | nil => rfl
        | cons lead data =>
            rcases exists_form_of_decodeFrom decoded with ⟨_, _, _, _, _, _, _, _, impossible⟩
            contradiction
    | cons c text inductionHypothesis =>
        cases data with
        | nil => simp [decodeFrom] at decoded
        | cons lead data =>
            rcases exists_form_of_decodeFrom decoded with
              ⟨bytes, code, rest, others, next, form, split, decodedRest, same⟩
            rw [List.cons.injEq] at same
            rcases same with ⟨rfl, rfl⟩
            rw [split, encode_cons, encodeChar_of_isForm form, inductionHypothesis decodedRest]
  · rintro rfl
    induction text generalizing position with
    | nil => rfl
    | cons c text inductionHypothesis =>
        rw [encode_cons, decodeFrom_append (isForm_encodeChar c), inductionHypothesis,
          Char.ofNat_toNat]
        rfl

theorem decode_eq_ok_iff : decode data = .ok text ↔ data = encode text :=
  decodeFrom_eq_ok_iff

theorem encode_injective {first second : Text} (same : encode first = encode second) :
    first = second := by
  have decoded : decode (encode first) = .ok first := decode_eq_ok_iff.mpr rfl
  rw [decode_eq_ok_iff.mpr same, Except.ok.injEq] at decoded
  exact decoded.symm

theorem length_encodeChar_pos (c : Char) : 0 < (encodeChar c).length := by
  have form := isForm_encodeChar c
  generalize encodeChar c = bytes at form
  cases form <;> exact Nat.succ_pos _

/-- A character is one byte below 128, or all of its bytes lie above. -/
theorem encodeChar_single_or_high (c : Char) :
    (∃ byte, encodeChar c = [byte] ∧ byte.toNat < 0x80) ∨
      ∀ byte ∈ encodeChar c, 0x80 ≤ byte.toNat := by
  have form := isForm_encodeChar c
  generalize encodeChar c = bytes at form
  cases form with
  | one isLead number => exact Or.inl ⟨_, rfl, isLead⟩
  | _ =>
      right
      simp only [IsContinuation] at *
      simp only [List.forall_mem_cons, List.not_mem_nil, false_implies, implies_true, and_true]
      omega

end Lexeme.Utf8
