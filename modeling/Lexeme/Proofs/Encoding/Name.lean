import Lexeme.Encoding.Name

/-!
# Encodings by name

Bytes are decoded with a name, which stands for an encoding or for none. For a name that stands
for one, decoding with the name is decoding with the encoding.
-/

namespace Lexeme.Encoding

theorem decode_nil (encoding : Encoding) : encoding.decode [] = .ok [] := by
  cases encoding <;> rfl

/-- Whether a name stands for an encoding when source bytes are decoded with it. -/
def HasName (encoding : Encoding) (name : Text) : Prop :=
  name.contains '\x00' = false ∧ ofName name = .ok encoding

theorem hasName_utf8 : utf8.HasName "utf-8".toList :=
  ⟨by decide, rfl⟩

theorem decodeNamed_eq {encoding : Encoding} {name : Text} (named : encoding.HasName name)
    (data : Bytes) : decodeNamed name data = (encoding.decode data).mapError .malformed := by
  rw [decodeNamed, named.1, if_neg Bool.false_ne_true, named.2]
  split
  · next empty => rw [List.isEmpty_iff.mp empty, decode_nil]; rfl
  · rfl

theorem checkName_eq_ok_iff {name checked : Text} :
    checkName name = .ok checked ↔
      checked = name ∧ name.contains '\x00' = false ∧
        ∃ codec, Codec.ofName? name = some codec ∧ codec.isAsciiCompatible = true := by
  simp only [checkName]
  split
  · next holdsNul =>
      rw [holdsNul]
      simp
  · next plain =>
      rw [Bool.not_eq_true] at plain
      rw [plain]
      cases Codec.ofName? name with
      | none => simp
      | some codec =>
          cases compatible : codec.isAsciiCompatible with
          | false => simp [compatible]
          | true =>
              simp only [if_true, Except.ok.injEq, Option.some.injEq, exists_eq_left', compatible,
                and_true]
              exact eq_comm

theorem ofName?_of_hasName {encoding : Encoding} {name : Text} (named : encoding.HasName name) :
    Codec.ofName? name = some (.source encoding) := by
  have found := named.2
  simp only [ofName] at found
  split at found
  · next source => rw [source, Except.ok.inj found]
  all_goals contradiction

theorem checkName_of_hasName {encoding : Encoding} {name : Text} (named : encoding.HasName name)
    (compatible : encoding.isAsciiCompatible = true) : checkName name = .ok name :=
  checkName_eq_ok_iff.mpr ⟨rfl, named.1, .source encoding, ofName?_of_hasName named, compatible⟩

theorem isAsciiCompatible_of_checkName {encoding : Encoding} {name checked : Text}
    (named : encoding.HasName name) (accepted : checkName name = .ok checked) :
    encoding.isAsciiCompatible = true := by
  rcases checkName_eq_ok_iff.mp accepted with ⟨_, _, codec, found, compatible⟩
  rw [ofName?_of_hasName named, Option.some.injEq] at found
  rwa [← found] at compatible

end Lexeme.Encoding
