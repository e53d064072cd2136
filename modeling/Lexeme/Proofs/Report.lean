import Lexeme.Proofs.Except
import Lexeme.Proofs.Text.Quoted
import Lexeme.Report
import Mathlib.Data.List.TakeWhile

/-!
# What can be read from a report

A report that shows texts tells everything about its rows: each row, each column and each character
of a text shows where it ends, so two lists of rows with the same report are the same. A table
keeps to one line per row whatever its texts hold, and a JSON report keeps to ASCII. A report is
written to its end exactly if all offsets have a written form; what stands there of one that breaks
off keeps to the same rules.
-/

namespace Lexeme.Report

section JsonText

/-- The letters that stand for a character behind a backslash in a JSON string. -/
def jsonLetters : List (Char × Char) :=
  [('n', '\n'), ('r', '\r'), ('t', '\t'), ('b', '\x08'), ('f', '\x0c')]

/-- What may be written for a character in a JSON string. -/
inductive IsJson (c : Char) : Text → Prop
  | bare (visible : 0x20 ≤ c.toNat ∧ c.toNat < 0x7f) (notQuote : c ≠ '"')
      (notBackslash : c ≠ '\\') : IsJson c [c]
  | mark (special : c = '"' ∨ c = '\\') : IsJson c ['\\', c]
  | letter {kind : Char} (named : (kind, c) ∈ jsonLetters) : IsJson c ['\\', kind]
  | unit (single : c.toNat < 0xd800 ∨ 0xdfff < c.toNat ∧ c.toNat < 0x10000) :
      IsJson c (unitEscape c.toNat)
  | pair {high low : Nat} (isHigh : Utf16.isHighSurrogate high) (isLow : Utf16.isLowSurrogate low)
      (joined : Utf16.joinPair high low = c) : IsJson c (unitEscape high ++ unitEscape low)

theorem isJson_jsonCharacter (c : Char) : IsJson c (jsonCharacter c) := by
  have valid : c.toNat < 0xd800 ∨ 0xdfff < c.toNat ∧ c.toNat < 0x110000 := c.valid
  unfold jsonCharacter
  split
  · next special => exact .mark special
  · next plain =>
    rw [not_or] at plain
    split
    · next isFeed => exact .letter (by simp [jsonLetters, isFeed])
    split
    · next isReturn => exact .letter (by simp [jsonLetters, isReturn])
    split
    · next isTab => exact .letter (by simp [jsonLetters, isTab])
    split
    · next isBackspace => exact .letter (by simp [jsonLetters, isBackspace])
    split
    · next isFormFeed => exact .letter (by simp [jsonLetters, isFormFeed])
    split
    · next visible => exact .bare visible plain.1 plain.2
    rw [Utf16.units]
    split
    · next low =>
      rw [List.flatMap_singleton]
      exact .unit (by omega)
    · next high =>
      rw [List.flatMap_cons, List.flatMap_singleton]
      refine .pair ?_ ?_ ?_
      · simp only [Utf16.isHighSurrogate, Bool.and_eq_true, decide_eq_true_eq]
        omega
      · simp only [Utf16.isLowSurrogate, Bool.and_eq_true, decide_eq_true_eq]
        omega
      · have number : 0x10000 + (0xd800 + (c.toNat - 0x10000) / 0x400 - 0xd800) * 0x400 +
            (0xdc00 + (c.toNat - 0x10000) % 0x400 - 0xdc00) = c.toNat := by omega
        rw [Utf16.joinPair, number, Char.ofNat_toNat]

/-- Reads a character back from what is written for it in a JSON string. -/
def readJson? : Text → Option (Char × Text)
  | '\\' :: kind :: rest =>
    if kind = 'u' then
      let (unit, behind) := Numeral.readHexadecimal 4 rest
      if Utf16.isHighSurrogate unit then
        some ((Numeral.readHexadecimal 4 (behind.drop 2)).map (Utf16.joinPair unit) id)
      else some (Char.ofNat unit, behind)
    else some ((jsonLetters.lookup kind).getD kind, rest)
  | c :: rest => some (c, rest)
  | [] => none

variable {c shown : Char} {text : Text}

theorem readJson?_of_isJson (isJson : IsJson c text) (rest : Text) :
    readJson? (text ++ rest) = some (c, rest) := by
  cases isJson with
  | bare visible notQuote notBackslash =>
      rw [List.singleton_append, readJson?]
      rintro kind others rfl
      exact absurd rfl notBackslash
  | mark special => rcases special with rfl | rfl <;> rfl
  | letter named =>
      simp only [jsonLetters, List.mem_cons, Prod.mk.injEq, List.not_mem_nil, or_false] at named
      rcases named with ⟨rfl, rfl⟩ | ⟨rfl, rfl⟩ | ⟨rfl, rfl⟩ | ⟨rfl, rfl⟩ | ⟨rfl, rfl⟩ <;> rfl
  | unit single =>
      have notHigh : Utf16.isHighSurrogate c.toNat = false := by
        simp only [Utf16.isHighSurrogate, Bool.and_eq_false_iff, decide_eq_false_iff_not]
        omega
      rw [unitEscape, List.cons_append, List.cons_append, readJson?, if_pos rfl,
        Numeral.readHexadecimal_append (by omega)]
      simp only [notHigh, Bool.false_eq_true, if_false, Char.ofNat_toNat]
  | @pair high low isHigh isLow joined =>
      have high_lt : high < 16 ^ 4 := by
        simp only [Utf16.isHighSurrogate, Bool.and_eq_true, decide_eq_true_eq] at isHigh
        omega
      have low_lt : low < 16 ^ 4 := by
        simp only [Utf16.isLowSurrogate, Bool.and_eq_true, decide_eq_true_eq] at isLow
        omega
      rw [unitEscape, List.append_assoc, List.cons_append, List.cons_append, readJson?,
        if_pos rfl, Numeral.readHexadecimal_append high_lt]
      simp only [isHigh, if_true, unitEscape, List.cons_append, List.drop_succ_cons, List.drop_zero,
        Numeral.readHexadecimal_append low_lt, Prod.map_apply, joined, id]

/-- In a JSON string nothing that is written for a character starts with the quote. -/
theorem head?_ne_of_isJson (isJson : IsJson c text) (rest : Text) :
    (text ++ rest).head? ≠ some '"' := by
  cases isJson with
  | bare _ notQuote _ => simpa using notQuote
  | mark | letter | unit | pair => simp [unitEscape]

theorem selfDelimiting_jsonString : Text.SelfDelimiting jsonString := by
  have delimiting := Text.selfDelimiting_of_read readJson?
    fun c => readJson?_of_isJson (isJson_jsonCharacter c)
  have goesOn := fun c => head?_ne_of_isJson (isJson_jsonCharacter c)
  exact (delimiting.flatMap_closed '"' goesOn).labelled ['"']

end JsonText

theorem name_injective : Function.Injective fun category : Category => category.name.toList := by
  intro first second same
  have sameName := congrArg Category.ofName? (String.toList_inj.mp same)
  simpa using sameName

/-- What a report tells of a row. -/
def Row.fields (row : Row) : Int × Category × Option Text :=
  (row.token.offset, row.token.category, row.text)

theorem fields_injective : Function.Injective Row.fields := by
  rintro ⟨⟨offset, category⟩, text⟩ ⟨⟨otherOffset, otherCategory⟩, otherText⟩ ⟨⟩
  rfl

section Json

/-- The beginning of a member of an object, up to its value. -/
def jsonLabel (name : String) : Text :=
  [' ', ' ', ' ', ' '] ++ jsonString name.toList ++ [':', ' ']

/-- The members of an object that concern the category, and the end of the line before them. -/
def jsonCategory (category : Category) : Text :=
  '\n' :: jsonLabel "category" ++ jsonString category.name.toList ++
    ([',', '\n'] ++ jsonLabel "ordinal" ++ Numeral.natural category.ordinal)

/-- The rest of an object, which is closed after the text if there is one. -/
def jsonText (text : Option Text) : Text :=
  (text.elim [] fun text => ',' :: ('\n' :: jsonLabel "text" ++ jsonString text)) ++
    '\n' :: [' ', ' ', '\x7d']

theorem jsonObject_eq (row : Row) :
    jsonObject true row =
      ([' ', ' ', '\x7b', '\n'] ++ jsonLabel "offset" ++
          (Numeral.integer row.fields.1 ++ [','])) ++
        (jsonCategory row.fields.2.1 ++ jsonText row.fields.2.2) := by
  rcases row with ⟨token, text⟩
  cases text <;>
    simp [jsonObject, jsonMembers, jsonMember, jsonLabel, jsonCategory, jsonText, Row.fields,
      Text.joinWith]

theorem selfDelimiting_jsonCategory : Text.SelfDelimiting jsonCategory :=
  ((selfDelimiting_jsonString.comp name_injective).labelled _).continued _

theorem selfDelimiting_jsonText : Text.SelfDelimiting jsonText :=
  selfDelimiting_jsonString.optional (by decide) _ _

theorem selfDelimiting_jsonObject : Text.SelfDelimiting (jsonObject true) := by
  rw [funext jsonObject_eq]
  have offsetDelimiting := (Numeral.selfDelimiting_integer ',' (by decide)).labelled
    ([' ', ' ', '\x7b', '\n'] ++ jsonLabel "offset")
  have fieldsDelimiting :=
    offsetDelimiting.pair (selfDelimiting_jsonCategory.pair selfDelimiting_jsonText)
  exact fieldsDelimiting.comp fields_injective

theorem json_cons (showText : Bool) (row : Row) (rows : List Row) :
    json showText (row :: rows) =
      ['[', '\n'] ++ (jsonObject showText row ++
        ((rows.flatMap ([',', '\n'] ++ jsonObject showText ·) ++ ['\n']) ++ [']', '\n'])) := by
  simp [json, Text.joinWith_cons_eq, List.flatMap_map]

theorem json_injective : Function.Injective (json true) := by
  intro rows others same
  cases rows with
  | nil =>
      cases others with
      | nil => rfl
      | cons other others =>
          rw [json_cons] at same
          cases same
  | cons row rows =>
      cases others with
      | nil =>
          rw [json_cons] at same
          cases same
      | cons other others =>
          rw [json_cons, json_cons] at same
          rcases selfDelimiting_jsonObject (List.append_cancel_left same) with ⟨rfl, sameRest⟩
          have delimiting :=
            (selfDelimiting_jsonObject.labelled [',', '\n']).flatMap_closed '\n' (by simp)
          rcases delimiting sameRest with ⟨rfl, _⟩
          rfl

end Json

section Ascii

def IsAscii (text : Text) : Prop :=
  ∀ c ∈ text, c.toNat < 0x80

instance (text : Text) : Decidable (IsAscii text) :=
  List.decidableBAll (fun c : Char => c.toNat < 0x80) text

variable {first second : Text}

@[simp]
theorem isAscii_append : IsAscii (first ++ second) ↔ IsAscii first ∧ IsAscii second :=
  List.forall_mem_append

@[simp]
theorem isAscii_cons {c : Char} : IsAscii (c :: first) ↔ c.toNat < 0x80 ∧ IsAscii first :=
  List.forall_mem_cons

theorem isAscii_flatMap {α : Type} {items : List α} {write : α → Text}
    (ascii : ∀ item ∈ items, IsAscii (write item)) : IsAscii (items.flatMap write) := by
  intro c cMem
  rcases List.mem_flatMap.mp cMem with ⟨item, itemMem, inItem⟩
  exact ascii item itemMem c inItem

theorem isAscii_joinWith {separator : Text} {texts : List Text} (separatorAscii : IsAscii separator)
    (ascii : ∀ text ∈ texts, IsAscii text) : IsAscii (Text.joinWith separator texts) := by
  intro c cMem
  rcases Text.mem_of_mem_joinWith cMem with inSeparator | ⟨text, textMem, inText⟩
  · exact separatorAscii c inSeparator
  · exact ascii text textMem c inText

theorem isAscii_unitEscape (unit : Nat) : IsAscii (unitEscape unit) := by
  have digits : ∀ digit < 16, (Nat.digitChar digit).toNat < 0x80 := by decide
  rw [unitEscape, isAscii_cons, isAscii_cons]
  refine ⟨by decide, by decide, ?_⟩
  intro c cMem
  rcases Numeral.exists_digit_of_mem_hexadecimal cMem with ⟨digit, digit_lt, rfl⟩
  exact digits digit digit_lt

theorem isAscii_of_isJson {c : Char} {text : Text} (isJson : IsJson c text) : IsAscii text := by
  cases isJson with
  | bare visible _ _ =>
      intro shown shownMem
      rw [List.mem_singleton.mp shownMem]
      omega
  | mark special => rcases special with rfl | rfl <;> decide
  | letter named =>
      have all : ∀ pair ∈ jsonLetters, IsAscii ['\\', pair.1] := by decide
      exact all _ named
  | unit => exact isAscii_unitEscape _
  | pair => exact isAscii_append.mpr ⟨isAscii_unitEscape _, isAscii_unitEscape _⟩

theorem isAscii_jsonString (text : Text) : IsAscii (jsonString text) := by
  rw [jsonString, List.cons_append, isAscii_cons, isAscii_append]
  refine ⟨by decide, isAscii_flatMap ?_, by decide⟩
  exact fun c _ => isAscii_of_isJson (isJson_jsonCharacter c)

theorem isAscii_natural (n : Nat) : IsAscii (Numeral.natural n) := by
  intro c cMem
  have bounds := Numeral.toNat_of_isDigit (Numeral.isDigit_of_mem_natural cMem)
  omega

theorem isAscii_integer (n : Int) : IsAscii (Numeral.integer n) := by
  cases n with
  | ofNat n => exact isAscii_natural n
  | negSucc n => exact isAscii_cons.mpr ⟨by decide, isAscii_natural _⟩

theorem isAscii_of_mem_jsonMembers {showText : Bool} {row : Row} {member : String × Text}
    (memberMem : member ∈ jsonMembers showText row) : IsAscii member.2 := by
  simp only [jsonMembers] at memberMem
  rcases List.mem_append.mp memberMem with always | ifShown
  · simp only [List.mem_cons, List.not_mem_nil, or_false] at always
    rcases always with rfl | rfl | rfl
    · exact isAscii_integer _
    · exact isAscii_jsonString _
    · exact isAscii_natural _
  · split at ifShown
    · rw [List.mem_singleton.mp ifShown]
      exact isAscii_jsonString _
    · cases ifShown

theorem isAscii_jsonObject (showText : Bool) (row : Row) : IsAscii (jsonObject showText row) := by
  rw [jsonObject, isAscii_append, isAscii_append]
  refine ⟨⟨by decide, isAscii_joinWith (by decide) ?_⟩, by decide⟩
  intro line lineMem
  rcases List.mem_map.mp lineMem with ⟨member, memberMem, rfl⟩
  rw [jsonMember, isAscii_append, isAscii_append, isAscii_append]
  exact ⟨⟨⟨by decide, isAscii_jsonString _⟩, by decide⟩, isAscii_of_mem_jsonMembers memberMem⟩

theorem isAscii_json (showText : Bool) (rows : List Row) : IsAscii (json showText rows) := by
  unfold json
  split
  · decide
  · rw [isAscii_append, isAscii_append]
    refine ⟨⟨by decide, isAscii_joinWith (by decide) ?_⟩, by decide⟩
    intro object objectMem
    rcases List.mem_map.mp objectMem with ⟨row, _, rfl⟩
    exact isAscii_jsonObject showText row

end Ascii

section Table

/-- The columns of a line in a table. -/
def columns (showText : Bool) (row : Row) : List Text :=
  [Numeral.integer row.token.offset, row.token.category.name.toList] ++
    if showText then (row.text.map Quoted.encode).toList else []

theorem tableLine_eq_joinWith (showText : Bool) (row : Row) :
    tableLine showText row = Text.joinWith ['\t'] (columns showText row) ++ ['\n'] := by
  rcases row with ⟨token, text⟩
  cases showText <;> cases text <;> simp [tableLine, columns, Text.joinWith]

theorem isPrintable_of_mem_columns {showText : Bool} {row : Row} {column : Text} {c : Char}
    (columnMem : column ∈ columns showText row) (cMem : c ∈ column) : Printable.isPrintable c := by
  rcases List.mem_append.mp columnMem with always | ifShown
  · simp only [List.mem_cons, List.not_mem_nil, or_false] at always
    rcases always with rfl | rfl
    · exact Printable.isPrintable_of_mem_integer cMem
    · exact Printable.isPrintable_of_mem_name _ c cMem
  · split at ifShown
    · simp only [Option.mem_toList, Option.map_eq_some_iff] at ifShown
      rcases ifShown with ⟨text, _, rfl⟩
      exact Quoted.isPrintable_of_mem_encode cMem
    · cases ifShown

theorem count_joinWith {separator : Char} {texts : List Text}
    (apart : ∀ text ∈ texts, separator ∉ text) :
    (Text.joinWith [separator] texts).count separator = texts.length - 1 := by
  induction texts with
  | nil => rfl
  | cons text texts inductionHypothesis =>
      rw [List.forall_mem_cons] at apart
      have inText := List.count_eq_zero_of_not_mem apart.1
      cases texts with
      | nil => exact inText
      | cons next texts =>
          rw [Text.joinWith_cons _ _ (List.cons_ne_nil _ _), List.count_append, List.count_append,
            inText, inductionHypothesis apart.2, List.count_singleton_self]
          simp only [List.length_cons]
          omega

theorem notMem_columns {c : Char} (hidden : Printable.isPrintable c = false) {showText : Bool}
    {row : Row} : ∀ column ∈ columns showText row, c ∉ column := by
  intro column columnMem cMem
  rw [isPrintable_of_mem_columns columnMem cMem] at hidden
  cases hidden

theorem isPrintable_of_mem_tableLine {showText : Bool} {row : Row} {c : Char}
    (cMem : c ∈ tableLine showText row) : c = '\n' ∨ c = '\t' ∨ Printable.isPrintable c := by
  rw [tableLine_eq_joinWith, List.mem_append, List.mem_singleton] at cMem
  rcases cMem with inColumns | isFeed
  · rcases Text.mem_of_mem_joinWith inColumns with isTab | ⟨column, columnMem, inColumn⟩
    · exact Or.inr (Or.inl (List.mem_singleton.mp isTab))
    · exact Or.inr (Or.inr (isPrintable_of_mem_columns columnMem inColumn))
  · exact Or.inl isFeed

theorem count_feed_tableLine (showText : Bool) (row : Row) :
    (tableLine showText row).count '\n' = 1 := by
  have notInColumns : '\n' ∉ Text.joinWith ['\t'] (columns showText row) := by
    intro feedMem
    rcases Text.mem_of_mem_joinWith feedMem with isTab | ⟨column, columnMem, inColumn⟩
    · exact absurd (List.mem_singleton.mp isTab) (by decide)
    · exact notMem_columns rfl column columnMem inColumn
  rw [tableLine_eq_joinWith, List.count_append, List.count_eq_zero_of_not_mem notInColumns,
    List.count_singleton_self]

theorem count_tab_tableLine (showText : Bool) (row : Row) :
    (tableLine showText row).count '\t' = if showText && row.text.isSome then 2 else 1 := by
  rw [tableLine_eq_joinWith, List.count_append, count_joinWith (notMem_columns rfl)]
  rcases row with ⟨token, text⟩
  cases showText <;> cases text <;> rfl

/-- The rest of a line, which ends after the text if there is one. -/
def tableText (text : Option Text) : Text :=
  (text.elim [] fun text => '\t' :: ([] ++ Quoted.encode text)) ++ ['\n']

theorem tableLine_eq (row : Row) :
    tableLine true row =
      (Numeral.integer row.fields.1 ++ ['\t']) ++
        (row.fields.2.1.name.toList ++ tableText row.fields.2.2) := by
  rcases row with ⟨token, text⟩
  cases text <;> simp [tableLine, tableText, Row.fields]

theorem selfDelimiting_tableText : Text.SelfDelimiting tableText :=
  Quoted.selfDelimiting_encode.optional (by decide) [] []

/-- A category's name ends before the first character that is not printable. -/
theorem selfDelimiting_tableRest : Text.SelfDelimiting fun rest : Category × Option Text =>
    rest.1.name.toList ++ tableText rest.2 := by
  rintro ⟨category, text⟩ ⟨otherCategory, otherText⟩ behind other same
  have stops (text : Option Text) (rest : Text) :
      ∀ c ∈ (tableText text ++ rest).head?, ¬Printable.isPrintable c := by
    cases text <;> rintro c ⟨⟩ <;> decide
  rw [List.append_assoc, List.append_assoc] at same
  rcases Text.eq_of_run_append (Printable.isPrintable_of_mem_name category)
    (Printable.isPrintable_of_mem_name otherCategory) (stops text behind) (stops otherText other)
    same with ⟨sameName, sameRest⟩
  rcases selfDelimiting_tableText sameRest with ⟨rfl, sameBehind⟩
  rw [name_injective sameName]
  exact ⟨rfl, sameBehind⟩

theorem selfDelimiting_tableLine : Text.SelfDelimiting (tableLine true) := by
  rw [funext tableLine_eq]
  have offsetDelimiting := Numeral.selfDelimiting_integer '\t' (by decide)
  exact (offsetDelimiting.pair selfDelimiting_tableRest).comp fields_injective

theorem table_injective : Function.Injective (table true) := by
  intro rows others same
  have nonempty (row : Row) (rest : Text) : ¬tableLine true row ++ rest = [] := by
    simp [tableLine]
  have sameEnd : rows.flatMap (tableLine true) ++ [] = others.flatMap (tableLine true) ++ [] := by
    rw [List.append_nil, List.append_nil]
    exact same
  exact (selfDelimiting_tableLine.eq_of_flatMap_append (· = []) nonempty rfl rfl sameEnd).1

end Table

section Written

variable {showText : Bool} {rows : List Row}

/-- A row as it is given to be reported. -/
def Row.entry (row : Row) : Mark × Option Text :=
  (toMark row.token, row.text)

/-- Why a report breaks off, if it does. -/
def breakOff (rows : List Row) : Option Failure :=
  if ∀ row ∈ rows, row.IsWritable then none else some .numberTooLong

theorem breakOff_eq_none_iff : breakOff rows = none ↔ ∀ row ∈ rows, row.IsWritable := by
  simp [breakOff]

theorem breakOff_cons (row : Row) (rows : List Row) :
    breakOff (row :: rows) = if row.IsWritable then breakOff rows else some .numberTooLong := by
  by_cases writable : row.IsWritable <;> simp [breakOff, writable]

theorem tableRows_entries (rows : List Row) :
    tableRows (rows.map Row.entry) = ⟨rows.takeWhile (·.IsWritable), breakOff rows⟩ := by
  induction rows with
  | nil => rfl
  | cons row rows inductionHypothesis =>
      have known : Row.ofMark (toMark row.token) row.text = .ok row := rfl
      rw [List.map_cons, Row.entry, tableRows, known, inductionHypothesis, breakOff_cons]
      have sameOffset : Numeral.IsWritable (toMark row.token).offset ↔ row.IsWritable := Iff.rfl
      by_cases writable : row.IsWritable
      · rw [if_pos (sameOffset.mpr writable), if_pos writable,
          List.takeWhile_cons, if_pos (decide_eq_true writable)]
        rfl
      · rw [if_neg (mt sameOffset.mp writable), if_neg writable,
          List.takeWhile_cons, if_neg (by simpa using writable)]
        rfl

theorem takeWhile_eq_self (writable : ∀ row ∈ rows, row.IsWritable) :
    rows.takeWhile (·.IsWritable) = rows :=
  List.takeWhile_eq_self_iff.mpr fun row rowMem => decide_eq_true (writable row rowMem)

theorem length_takeWhile_eq_iff :
    (rows.takeWhile (·.IsWritable)).length = rows.length ↔ ∀ row ∈ rows, row.IsWritable := by
  constructor
  · intro sameLength
    have whole := (List.takeWhile_prefix _).eq_of_length sameLength
    intro row rowMem
    exact of_decide_eq_true (List.takeWhile_eq_self_iff.mp whole row rowMem)
  · intro writable
    rw [takeWhile_eq_self writable]

theorem write_json_entries (showText : Bool) (rows : List Row) :
    write .json showText (rows.map Row.entry) = jsonUpTo showText rows := by
  have named : (rows.map Row.entry).mapM (fun entry => Row.ofMark entry.1 entry.2) = .ok rows := by
    induction rows with
    | nil => rfl
    | cons row rows inductionHypothesis =>
        exact Except.mapM_cons_eq_ok_iff.mpr ⟨row, rows, rfl, inductionHypothesis, rfl⟩
  simp only [write, named]

theorem write_table_entries (showText : Bool) (rows : List Row) :
    write .table showText (rows.map Row.entry) =
      (table showText (rows.takeWhile (·.IsWritable)), breakOff rows) := by
  simp only [write, tableRows_entries]

theorem write_table_of_not_isWritable {row : Row} (long : ¬row.IsWritable) :
    write .table showText [row.entry] = ([], some .numberTooLong) := by
  have written := write_table_entries showText [row]
  rw [List.takeWhile_cons, if_neg (by simpa using long), breakOff_cons, if_neg long] at written
  exact written

/-- A report of rows that can all be written is complete. -/
theorem write_of_isWritable (writable : ∀ row ∈ rows, row.IsWritable) (format : Format)
    (showText : Bool) :
    write format showText (rows.map Row.entry) = (render format showText rows, none) := by
  cases format with
  | table =>
      rw [write_table_entries, takeWhile_eq_self writable, breakOff_eq_none_iff.mpr writable]
      rfl
  | json =>
      rw [write_json_entries, jsonUpTo]
      exact if_pos (length_takeWhile_eq_iff.mpr writable)

/-- Whatever the layout, a report breaks off at the first offset without a written form. -/
theorem failure_write (format : Format) (showText : Bool) (rows : List Row) :
    (write format showText (rows.map Row.entry)).2 = breakOff rows := by
  cases format with
  | table => rw [write_table_entries]
  | json =>
      rw [write_json_entries, jsonUpTo, breakOff]
      simp only [length_takeWhile_eq_iff]
      split <;> rfl

theorem takeWhile_append_cons {before behind : List Row} {bad : Row}
    (writable : ∀ row ∈ before, row.IsWritable) (long : ¬bad.IsWritable) :
    (before ++ bad :: behind).takeWhile (·.IsWritable) = before := by
  rw [List.takeWhile_append_of_pos fun row rowMem => decide_eq_true (writable row rowMem),
    List.takeWhile_cons, if_neg (by simpa using long), List.append_nil]

theorem exists_tableLine_eq (showText : Bool) (row : Row) :
    ∃ rest, tableLine showText row = Numeral.integer row.token.offset ++ rest := by
  unfold tableLine
  rw [List.append_assoc, List.append_assoc]
  exact ⟨_, rfl⟩

theorem exists_jsonObject_eq (showText : Bool) (row : Row) :
    ∃ rest, jsonObject showText row = jsonStart ++ (Numeral.integer row.token.offset ++ rest) := by
  have offsetFirst : ∃ others, jsonMembers showText row =
      ("offset", Numeral.integer row.token.offset) :: others :=
    ⟨_, rfl⟩
  rcases offsetFirst with ⟨others, members⟩
  rw [jsonObject, members, List.map_cons, Text.joinWith_cons_eq]
  simp only [jsonStart, jsonMember, List.append_assoc, List.append_nil]
  exact ⟨_, rfl⟩

/-- What is written of a report is all of it up to the first number without a written form. -/
theorem exists_render_eq_write {before behind : List Row} {bad : Row}
    (writable : ∀ row ∈ before, row.IsWritable) (long : ¬bad.IsWritable) (format : Format)
    (showText : Bool) :
    ∃ rest, render format showText (before ++ bad :: behind) =
      (write format showText ((before ++ bad :: behind).map Row.entry)).1 ++
        (Numeral.integer bad.token.offset ++ rest) := by
  cases format with
  | table =>
      rcases exists_tableLine_eq showText bad with ⟨rest, line⟩
      refine ⟨rest ++ table showText behind, ?_⟩
      rw [write_table_entries, takeWhile_append_cons writable long, render, table,
        List.flatMap_append, List.flatMap_cons, line, List.append_assoc]
      rfl
  | json =>
      rcases exists_jsonObject_eq showText bad with ⟨rest, object⟩
      have shorter : before.length ≠ (before ++ bad :: behind).length := by simp
      have nonempty : (before ++ bad :: behind).isEmpty = false := by simp
      rw [write_json_entries, jsonUpTo, takeWhile_append_cons writable long, if_neg shorter, render,
        json, nonempty, if_neg nofun, List.map_append, List.map_cons, Text.joinWith_append_cons,
        Text.joinWith_cons_eq, object, List.flatMap_map]
      simp only [List.append_assoc]
      exact ⟨_, rfl⟩

theorem isAscii_write_json (showText : Bool) (rows : List Row) :
    IsAscii (write .json showText (rows.map Row.entry)).1 := by
  rw [write_json_entries, jsonUpTo]
  split
  · exact isAscii_json showText rows
  · rw [isAscii_append, isAscii_append]
    refine ⟨⟨by decide, isAscii_flatMap ?_⟩, by decide⟩
    intro row _
    rw [isAscii_append]
    exact ⟨isAscii_jsonObject showText row, by decide⟩

end Written

/-- A report is complete exactly if all offsets have a written form; otherwise it breaks off right
before the first one that has none. With its texts shown a complete report tells everything about
its rows, in either layout. Whatever the rows hold, a table has one line for each row that it shows,
which are all rows if it is complete, with a tab between two columns and no other character that
would end a line or control a terminal; and a JSON report is in ASCII, as far as it goes. -/
theorem reports_are_lossless :
    (∀ (format : Format) (rows others : List Row), (∀ row ∈ rows, row.IsWritable) →
      write format true (rows.map Row.entry) = write format true (others.map Row.entry) →
      rows = others) ∧
    ∀ (showText : Bool) (rows : List Row),
      (∀ format, (write format showText (rows.map Row.entry)).2 =
        if ∀ row ∈ rows, row.IsWritable then none else some .numberTooLong) ∧
      (∀ before bad behind, rows = before ++ bad :: behind → (∀ row ∈ before, row.IsWritable) →
        ¬bad.IsWritable → ∀ format, ∃ rest, render format showText rows =
          (write format showText (rows.map Row.entry)).1 ++
            (Numeral.integer bad.token.offset ++ rest)) ∧
      ∃ shown, shown <+: rows ∧ ((∀ row ∈ rows, row.IsWritable) → shown = rows) ∧
        (write .table showText (rows.map Row.entry)).1.count '\n' = shown.length ∧
        (write .table showText (rows.map Row.entry)).1.count '\t' =
          (shown.map fun row => if showText && row.text.isSome then 2 else 1).sum ∧
        (∀ c ∈ (write .table showText (rows.map Row.entry)).1,
          c = '\n' ∨ c = '\t' ∨ ¬Printable.IsControl c ∧ c ∉ Printable.lineBreaks) ∧
        ∀ c ∈ (write .json showText (rows.map Row.entry)).1, c.toNat < 0x80 := by
  refine ⟨?_, ?_⟩
  · intro format rows others writable same
    have othersWritable : ∀ row ∈ others, row.IsWritable := by
      rw [← breakOff_eq_none_iff, ← failure_write format true, ← same, failure_write]
      exact breakOff_eq_none_iff.mpr writable
    rw [write_of_isWritable writable, write_of_isWritable othersWritable, Prod.mk.injEq] at same
    cases format with
    | table => exact table_injective same.1
    | json => exact json_injective same.1
  · intro showText rows
    refine ⟨fun format => failure_write format showText rows, ?_, rows.takeWhile (·.IsWritable),
      List.takeWhile_prefix _, takeWhile_eq_self, ?_, ?_, ?_, isAscii_write_json showText rows⟩
    · rintro before bad behind rfl writable long format
      exact exists_render_eq_write writable long format showText
    · simp [write_table_entries, table, List.count_flatMap, Function.comp_def,
        count_feed_tableLine, List.map_const']
    · simp [write_table_entries, table, List.count_flatMap, Function.comp_def, count_tab_tableLine]
    · intro c cMem
      rw [write_table_entries] at cMem
      rcases List.mem_flatMap.mp cMem with ⟨row, _, inLine⟩
      rcases isPrintable_of_mem_tableLine inLine with isFeed | isTab | printable
      · exact Or.inl isFeed
      · exact Or.inr (Or.inl isTab)
      · exact Or.inr (Or.inr
          ⟨Printable.not_isControl printable, Printable.notMem_lineBreaks printable⟩)

/-- A text that breaks lines twice stays in its line, and a text with nothing in it is told from no
text. -/
theorem reports_are_lossless_of_breaks :
    (write .table true [Row.entry ⟨⟨-3, .plus⟩, some "it's\n\u2028".toList⟩]).1 =
        "-3\tPLUS\t\"it's\\n\\u2028\"\n".toList ∧
      (write .table true [Row.entry ⟨⟨-3, .plus⟩, some "it's\n\u2028".toList⟩]).1.count '\n' = 1 ∧
      (∀ row ∈ [Row.mk ⟨3, .plus⟩ none], row.IsWritable) ∧
      write .json true [Row.entry ⟨⟨3, .plus⟩, none⟩] ≠
        write .json true [Row.entry ⟨⟨3, .plus⟩, some []⟩] := by
  have writable : ∀ row ∈ [Row.mk ⟨3, .plus⟩ none], row.IsWritable := by decide
  rcases (reports_are_lossless.2 true [⟨⟨-3, .plus⟩, some "it's\n\u2028".toList⟩]).2.2 with
    ⟨shown, _, complete, feeds, _⟩
  rw [complete (by decide)] at feeds
  refine ⟨by decide +kernel, feeds, writable, ?_⟩
  intro same
  have sameRows := reports_are_lossless.1 .json [⟨⟨3, .plus⟩, none⟩] [⟨⟨3, .plus⟩, some []⟩]
    writable same
  cases sameRows

/-- Of a row at the least offset without a written form a table has nothing, so it cannot be told
from another such row. -/
theorem unwritable_offset_breaks_report :
    write .table true [Row.entry ⟨⟨10 ^ Numeral.maxDigits, .plus⟩, none⟩] =
        ([], some .numberTooLong) ∧
      write .table true [Row.entry ⟨⟨10 ^ Numeral.maxDigits, .plus⟩, none⟩] =
        write .table true [Row.entry ⟨⟨10 ^ Numeral.maxDigits, .minus⟩, none⟩] := by
  have nothing (category : Category) :
      write .table true [Row.entry ⟨⟨10 ^ Numeral.maxDigits, category⟩, none⟩] =
        ([], some .numberTooLong) :=
    write_table_of_not_isWritable Numeral.not_isWritable_pow
  exact ⟨nothing .plus, (nothing .plus).trans (nothing .minus).symm⟩

end Lexeme.Report
