import Lexeme.Category
import Lexeme.Proofs.Text.SelfDelimiting
import Lexeme.Text.Quoted

/-!
# Quoted text read back

Between its quotes a text is shown character by character, and each character is read back from
what is shown of it. The quote itself is not shown bare, so a quoted text shows where it ends.
Whatever is shown has a visible form: a quoted text neither breaks a line nor controls a terminal.
-/

namespace Lexeme

namespace Printable

/-- The control characters: those below the blank, and those from the delete character on to the
no-break space. -/
def IsControl (c : Char) : Prop :=
  c.toNat < 0x20 ∨ 0x7f ≤ c.toNat ∧ c.toNat < 0xa0

/-- The characters at which some program may take a line to end. -/
def lineBreaks : List Char :=
  ['\n', '\x0b', '\x0c', '\r', '\x1c', '\x1d', '\x1e', '\u0085', '\u2028', '\u2029']

theorem not_isPrintable_of_mem_lineBreaks : ∀ c ∈ lineBreaks, isPrintable c = false := by
  have none : lineBreaks.all (!isPrintable ·) = true := by decide +kernel
  simpa using List.all_eq_true.mp none

theorem not_isControl {c : Char} (printable : isPrintable c) : ¬IsControl c := by
  rw [isPrintable] at printable
  rintro (low | ⟨high, low⟩)
  · rw [if_pos (by omega), decide_eq_true_eq] at printable
    omega
  · rw [if_neg (by omega), if_pos (by omega), decide_eq_true_eq] at printable
    omega

theorem notMem_lineBreaks {c : Char} (printable : isPrintable c) : c ∉ lineBreaks := by
  intro isBreak
  rw [not_isPrintable_of_mem_lineBreaks c isBreak] at printable
  cases printable

theorem isPrintable_digitChar : ∀ digit < 16, isPrintable (Nat.digitChar digit) = true := by
  decide

theorem isPrintable_of_isDigit {c : Char} (isDigit : c.isDigit) : isPrintable c := by
  have bounds := Numeral.toNat_of_isDigit isDigit
  rw [isPrintable, if_pos (by omega), decide_eq_true_eq]
  omega

theorem isPrintable_of_mem_integer {n : Int} {c : Char} (cMem : c ∈ Numeral.integer n) :
    isPrintable c := by
  rcases Numeral.mem_integer cMem with rfl | isDigit
  · rfl
  · exact isPrintable_of_isDigit isDigit

theorem isPrintable_of_mem_name (category : Category) :
    ∀ c ∈ category.name.toList, isPrintable c := by
  have all : category.name.toList.all isPrintable = true := by
    cases category <;> decide
  exact List.all_eq_true.mp all

theorem isPrintable_of_mem_spaced {data : Bytes} {c : Char} (cMem : c ∈ Hex.spaced data) :
    isPrintable c := by
  rcases Text.mem_of_mem_joinWith cMem with isBlank | ⟨pair, pairMem, inPair⟩
  · rw [List.mem_singleton.mp isBlank]
    rfl
  · rcases List.mem_map.mp pairMem with ⟨byte, _, rfl⟩
    rcases Numeral.exists_digit_of_mem_hexadecimal inPair with ⟨digit, digit_lt, rfl⟩
    exact isPrintable_digitChar digit digit_lt

end Printable

namespace Quoted

/-- The letters that stand for a character behind a backslash. -/
def letters : List (Char × Char) :=
  [('n', '\n'), ('r', '\r'), ('t', '\t')]

/-- The letters that tell behind a backslash how many digits follow. -/
def widths : List (Char × Nat) :=
  [('x', 2), ('u', 4), ('U', 8)]

/-- What may be shown of a character between quotes. -/
inductive IsShown (quote c : Char) : Text → Prop
  | bare (printable : Printable.isPrintable c) (notQuote : c ≠ quote) (notBackslash : c ≠ '\\') :
      IsShown quote c [c]
  | mark (special : c = quote ∨ c = '\\') : IsShown quote c ['\\', c]
  | letter {kind : Char} (named : (kind, c) ∈ letters) : IsShown quote c ['\\', kind]
  | number {kind : Char} {width : Nat} (named : (kind, width) ∈ widths)
      (fits : c.toNat < 16 ^ width) :
      IsShown quote c ('\\' :: kind :: Numeral.hexadecimal width c.toNat)

theorem isShown_escape (quote c : Char) : IsShown quote c (escape quote c) := by
  have valid : c.toNat < 0xd800 ∨ 0xdfff < c.toNat ∧ c.toNat < 0x110000 := c.valid
  unfold escape
  split
  · next special => exact .mark special
  · next plain =>
    rw [not_or] at plain
    split
    · next isFeed => exact .letter (by simp [letters, isFeed])
    split
    · next isReturn => exact .letter (by simp [letters, isReturn])
    split
    · next isTab => exact .letter (by simp [letters, isTab])
    split
    · next printable => exact .bare printable plain.1 plain.2
    split
    · next low => exact .number (by decide) low
    split
    · next low => exact .number (by decide) low
    · exact .number (by decide) (by omega)

/-- Reads a character back from what is shown of it. -/
def read? : Text → Option (Char × Text)
  | '\\' :: kind :: rest =>
    match letters.lookup kind, widths.lookup kind with
    | some c, _ => some (c, rest)
    | none, some width => some ((Numeral.readHexadecimal width rest).map Char.ofNat id)
    | none, none => some (kind, rest)
  | c :: rest => some (c, rest)
  | [] => none

variable {quote c shown : Char}

theorem read?_of_isShown (isQuote : quote = '\'' ∨ quote = '"') {text : Text}
    (isShown : IsShown quote c text) (rest : Text) : read? (text ++ rest) = some (c, rest) := by
  cases isShown with
  | bare printable notQuote notBackslash =>
      rw [List.singleton_append, read?]
      rintro kind others rfl
      exact absurd rfl notBackslash
  | mark special =>
      have marks : c = '\'' ∨ c = '"' ∨ c = '\\' := by
        rcases special with rfl | rfl
        · exact isQuote.imp_right Or.inl
        · exact Or.inr (Or.inr rfl)
      rcases marks with rfl | rfl | rfl <;> rfl
  | letter named =>
      simp only [letters, List.mem_cons, Prod.mk.injEq, List.not_mem_nil, or_false] at named
      rcases named with ⟨rfl, rfl⟩ | ⟨rfl, rfl⟩ | ⟨rfl, rfl⟩ <;> rfl
  | number named fits =>
      have readBack := Numeral.readHexadecimal_append fits rest
      simp only [widths, List.mem_cons, Prod.mk.injEq, List.not_mem_nil, or_false] at named
      rcases named with ⟨rfl, rfl⟩ | ⟨rfl, rfl⟩ | ⟨rfl, rfl⟩ <;>
        simp [read?, letters, widths, List.lookup_cons, readBack]

/-- Between quotes nothing that is shown of a character starts with the quote. -/
theorem head?_ne_of_isShown (isQuote : quote = '\'' ∨ quote = '"') {text : Text}
    (isShown : IsShown quote c text) (rest : Text) : (text ++ rest).head? ≠ some quote := by
  have notQuote : '\\' ≠ quote := by rcases isQuote with rfl | rfl <;> decide
  cases isShown with
  | bare _ apart _ => simpa using apart
  | mark | letter | number => simpa using notQuote

theorem isPrintable_of_isShown (quotePrintable : Printable.isPrintable quote) {text : Text}
    (isShown : IsShown quote c text) (shownMem : shown ∈ text) : Printable.isPrintable shown := by
  have backslash : Printable.isPrintable '\\' := rfl
  cases isShown with
  | bare printable _ _ => rwa [List.mem_singleton.mp shownMem]
  | mark special =>
      have special : Printable.isPrintable c := by rcases special with rfl | rfl <;> assumption
      simp only [List.mem_cons, List.not_mem_nil, or_false] at shownMem
      rcases shownMem with rfl | rfl <;> assumption
  | letter named =>
      have all : ∀ pair ∈ letters, Printable.isPrintable pair.1 := by decide
      simp only [List.mem_cons, List.not_mem_nil, or_false] at shownMem
      rcases shownMem with rfl | rfl
      · exact backslash
      · exact all _ named
  | number named _ =>
      have all : ∀ pair ∈ widths, Printable.isPrintable pair.1 := by decide
      simp only [List.mem_cons] at shownMem
      rcases shownMem with rfl | rfl | inDigits
      · exact backslash
      · exact all _ named
      · rcases Numeral.exists_digit_of_mem_hexadecimal inDigits with ⟨digit, digit_lt, rfl⟩
        exact Printable.isPrintable_digitChar digit digit_lt

theorem delimiter_eq (text : Text) : delimiter text = '\'' ∨ delimiter text = '"' := by
  unfold delimiter
  split
  · exact Or.inr rfl
  · exact Or.inl rfl

/-- A quoted text shows where it ends: it starts with its quote, and from there to its end nothing
else starts with the quote. -/
theorem selfDelimiting_encode : Text.SelfDelimiting encode := by
  intro first second behind other same
  rw [encode, encode, List.cons_append, List.cons_append, List.cons_append, List.cons_append,
    List.cons.injEq] at same
  rcases same with ⟨sameQuote, sameBehind⟩
  have isQuote := delimiter_eq second
  rw [sameQuote] at sameBehind
  have delimiting := Text.selfDelimiting_of_read read?
    fun c => read?_of_isShown isQuote (isShown_escape _ c)
  have goesOn := fun c => head?_ne_of_isShown isQuote (isShown_escape _ c)
  exact delimiting.flatMap_closed _ goesOn sameBehind

theorem isPrintable_of_mem_encode {text : Text} (shownMem : shown ∈ encode text) :
    Printable.isPrintable shown := by
  have quotePrintable : Printable.isPrintable (delimiter text) := by
    rcases delimiter_eq text with same | same <;> rw [same] <;> rfl
  rw [encode, List.cons_append, List.mem_cons, List.mem_append, List.mem_flatMap,
    List.mem_singleton] at shownMem
  rcases shownMem with rfl | ⟨c, _, shownMem⟩ | rfl
  · exact quotePrintable
  · exact isPrintable_of_isShown quotePrintable (isShown_escape _ c) shownMem
  · exact quotePrintable

end Quoted

end Lexeme
