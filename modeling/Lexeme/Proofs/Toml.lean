import Lexeme.Toml.Document

/-!
# Configurations read line by line

A string without escapes is read as it stands, and a key of characters that need no quotes up to
the first one that does. A statement is read before the rest of its line, and the lines behind it
after. So a configuration of plain statements is read by reading one after the other.
-/

namespace Lexeme.Toml

/-- Whether a text stands in double quotes as it is. -/
def IsPlain (text : Text) : Prop :=
  ∀ c ∈ text, c ≠ '"' ∧ c ≠ '\\' ∧ isControl c = false

instance (text : Text) : Decidable (IsPlain text) :=
  List.decidableBAll _ text

variable {text rest behind : Text}

theorem readBasic_of_isPlain (plain : IsPlain text) (rest : Text) :
    readBasic false .off (text ++ '"' :: rest) = .ok (text, rest) := by
  induction text with
  | nil =>
      unfold readBasic
      simp
  | cons c text inductionHypothesis =>
      rcases List.forall_mem_cons.mp plain with ⟨⟨notQuote, notBackslash, visible⟩, others⟩
      rw [List.cons_append]
      unfold readBasic
      simp [notQuote, notBackslash, visible, inductionHypothesis others, push, Except.map]

/-- Three quotes would open a string of several lines, so there has to be something between the
quotes. -/
theorem readValue_of_isPlain (plain : IsPlain text) (nonempty : text ≠ []) (rest : Text) :
    readValue ('"' :: (text ++ '"' :: rest)) = .ok (.text text, rest) := by
  have read : readString? ('"' :: (text ++ '"' :: rest)) = some (.ok (text, rest)) := by
    cases text with
    | nil => exact absurd rfl nonempty
    | cons c text =>
        have notQuote : c ≠ '"' := (plain c List.mem_cons_self).1
        rw [← readBasic_of_isPlain plain rest, List.cons_append, readString?]
        intro more twoQuotes
        exact notQuote (List.head_eq_of_cons_eq twoQuotes)
  unfold readValue
  rw [read]
  rfl

theorem readKeyPart_of_isBare {key : Text} (bare : key.all isBare = true) (nonempty : key ≠ [])
    (stops : rest.head?.any isBare = false) :
    readKeyPart (key ++ rest) = .ok (key, rest) := by
  have taken : (key ++ rest).takeWhile isBare = key := by
    rw [List.takeWhile_append_of_pos (List.all_eq_true.mp bare)]
    cases rest with
    | nil => exact List.append_nil key
    | cons c rest =>
        have stops : isBare c = false := stops
        rw [List.takeWhile_cons, stops, if_neg nofun, List.append_nil]
  have dropped : (key ++ rest).dropWhile isBare = rest := by
    rw [List.dropWhile_append_of_pos (List.all_eq_true.mp bare)]
    cases rest with
    | nil => rfl
    | cons c rest =>
        have stops : isBare c = false := stops
        rw [List.dropWhile_cons, stops, if_neg nofun]
  cases key with
  | nil => exact absurd rfl nonempty
  | cons first key =>
      have firstBare : isBare first = true := (Bool.and_eq_true_iff.mp bare).1
      rw [List.cons_append] at taken dropped ⊢
      rw [readKeyPart, taken, dropped, if_pos firstBare]
      · rintro rfl
        exact absurd firstBare (by decide)
      · rintro rfl
        exact absurd firstBare (by decide)

theorem readKey_of_isBare {key : Text} (bare : key.all isBare = true) (nonempty : key ≠ [])
    (stops : rest.head?.any isBare = false) (single : (skipBlanks rest).head? ≠ some '.') :
    readKey (key ++ rest) = .ok ([key], skipBlanks rest) := by
  rw [readKey, readKeyPart_of_isBare bare nonempty stops]
  simp only [bind, Except.bind]
  split
  · next point => simp [point] at single
  · rfl

namespace Document

variable {document after : Document} {path : List Text} {value : Datum}

theorem readEntry_of_readValue (key : readKey text = .ok (path, '=' :: behind))
    (read : readValue (skipBlanks behind) = .ok (value, rest))
    (added : document.addEntry path value = .ok after) :
    document.readEntry text = .ok (after, rest) := by
  rw [readEntry, key]
  simp only [bind, Except.bind, read, added]
  rfl

theorem readEntry_of_isPlain (key text rest : Text) (bare : key.all isBare = true)
    (keyNonempty : key ≠ []) (plain : IsPlain text) (nonempty : text ≠ [])
    (added : document.addEntry [key] (.text text) = .ok after) :
    document.readEntry (key ++ ' ' :: '=' :: ' ' :: '"' :: (text ++ '"' :: rest)) =
      .ok (after, rest) := by
  have stops : isBare ' ' = false := rfl
  have single : some '=' ≠ some '.' := by decide
  exact readEntry_of_readValue (readKey_of_isBare bare keyNonempty stops single)
    (readValue_of_isPlain plain nonempty rest) added

theorem readHeader_of_isBare (key rest : Text) (bare : key.all isBare = true)
    (nonempty : key ≠ []) (begun : document.settle.beginTable [key] = .ok after) :
    document.readHeader ('[' :: (key ++ ']' :: rest)) = .ok (after, rest) := by
  have stops : (']' :: rest).head?.any isBare = false := rfl
  have single : some ']' ≠ some '.' := by decide
  have named := readKey_of_isBare bare nonempty stops single
  cases key with
  | nil => exact absurd rfl nonempty
  | cons first key =>
      have firstBare : isBare first = true := (Bool.and_eq_true_iff.mp bare).1
      have notBlank : ¬isBlank first = true := by
        intro blank
        have isBlankOrTab : first = ' ' ∨ first = '\t' := by simpa [isBlank] using blank
        rcases isBlankOrTab with rfl | rfl <;> exact absurd firstBare (by decide)
      rw [List.cons_append] at named ⊢
      rw [readHeader, skipBlanks, List.dropWhile_cons_of_neg notBlank, named]
      · simp only [bind, Except.bind, begun]
        rfl
      · rintro _ ⟨⟩
        exact absurd firstBare (by decide)

theorem readLines_of_readStatement
    (stated : document.readStatement (skipBlanks text) = .ok (after, '\n' :: behind))
    (shorter : behind.length < text.length) : document.readLines text = after.readLines behind := by
  rw [readLines, stated]
  exact if_pos shorter

theorem readLines_nil (document : Document) : document.readLines [] = .ok document := by
  rw [readLines]
  rfl

end Document

/-- A configuration of one statement. -/
theorem parse_of_readStatement (text : Text) {after : Document}
    (lineFeeds : joinLineEnds text = text)
    (stated : Document.empty.readStatement (skipBlanks text) = .ok (after, ['\n']))
    (nonempty : text ≠ []) : parse text = .ok after.table := by
  rw [parse, lineFeeds, Document.readLines_of_readStatement stated
    (List.length_pos_iff.mpr nonempty), Document.readLines_nil]
  rfl

end Lexeme.Toml
