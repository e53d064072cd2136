import Lexeme.Proofs.Locate.Linear
import Lexeme.Proofs.Text.Quoted

/-!
# What a dump shows before it stops

A dump is written row by row while the texts are read, so it shows the rows of all tokens before
the first bad one and nothing of that one. A token is bad if its text cannot be read or if it has
no record, and of these the text is looked at first. A row is written on a line of its own, where
each of its columns tells one thing about the token, and the column with the record is read back as
the token.
-/

namespace Lexeme

namespace Partial

variable {α : Type} {failure : Failure} {results : List (Except Failure α)}

/-- The results of some computations up to the first one that fails. -/
def untilFailure : List (Except Failure α) → Partial α
  | [] => done
  | .error failure :: _ => failed failure
  | .ok item :: rest => (untilFailure rest).cons item

theorem getElem?_of_untilFailure {index : Nat} {item : α}
    (produced : (untilFailure results).items[index]? = some item) :
    results[index]? = some (.ok item) := by
  induction results generalizing index with
  | nil => cases produced
  | cons result rest inductionHypothesis =>
      cases result with
      | error failure => cases produced
      | ok first =>
          rw [untilFailure, items_cons] at produced
          cases index with
          | zero =>
              cases produced
              rfl
          | succ index => exact inductionHypothesis produced

theorem length_untilFailure (complete : (untilFailure results).failure = none) :
    (untilFailure results).items.length = results.length := by
  induction results with
  | nil => rfl
  | cons result rest inductionHypothesis =>
      cases result with
      | error failure => cases complete
      | ok first =>
          rw [untilFailure, items_cons, List.length_cons, List.length_cons,
            inductionHypothesis complete]

/-- What a sequence stops at stands behind the items that it has produced. -/
theorem getElem?_length_untilFailure (stopped : (untilFailure results).failure = some failure) :
    results[(untilFailure results).items.length]? = some (.error failure) := by
  induction results with
  | nil => cases stopped
  | cons result rest inductionHypothesis =>
      cases result with
      | error reason =>
          cases stopped
          rfl
      | ok first =>
          rw [untilFailure, items_cons, List.length_cons, List.getElem?_cons_succ]
          exact inductionHypothesis stopped

end Partial

namespace Dump

variable {source : Source} {name : Text} {token : Token} {tokens : List Token}

section Lines

/-- Whether a line tells a row: the offset, the ordinal, the name of the category and the record
stand in columns, the record is read back as the token, and the quoted text stands behind them. -/
structure Tells (line : Text) (row : Row) : Prop where
  offset : (Text.column 2 10 line).filter (· ≠ ' ') = Numeral.integer row.token.offset
  ordinal : (Text.column 14 3 line).filter (· ≠ ' ') =
    Numeral.natural row.token.category.ordinal
  category : (Text.column 19 14 line).filter (· ≠ ' ') = row.token.category.name.toList
  wire : Text.column 35 14 line = Hex.spaced row.record
  token : Hex.parse? ((Text.column 35 14 line).filter (· ≠ ' ')) = some row.record ∧
    Token.unpack row.record = .ok row.token
  text : line.drop 49 = row.text.elim [] fun text => [' ', ' '] ++ Quoted.encode text

theorem length_integer_of_isPackable (packable : token.IsPackable) :
    (Numeral.integer token.offset).length ≤ 10 := by
  rcases Int.eq_ofNat_of_zero_le packable.1 with ⟨n, isOffset⟩
  have small := (Token.isPackable_iff.mp packable).2
  rw [isOffset]
  exact (Nat.length_toDigits_le_iff (by decide) (by decide)).mpr (by omega)

theorem length_natural_ordinal : ∀ category : Category,
    (Numeral.natural category.ordinal).length ≤ 3 := by
  intro category
  cases category <;> decide

theorem length_name : ∀ category : Category, category.name.toList.length ≤ 14 := by
  intro category
  cases category <;> decide

theorem blank_notMem_name : ∀ category : Category, ' ' ∉ category.name.toList := by
  intro category
  cases category <;> decide

theorem blank_notMem_integer (n : Int) : ' ' ∉ Numeral.integer n := by
  intro blankMem
  rcases Numeral.mem_integer blankMem with isSign | isDigit
  · exact absurd isSign (by decide)
  · exact absurd isDigit (by decide)

/-- A line with what its columns hold and what stands behind them. -/
theorem line_eq (row : Row) :
    row.line =
      [' ', ' '] ++ (Text.alignRight 10 (Numeral.integer row.token.offset) ++
        ([' ', ' '] ++ (Text.alignRight 3 (Numeral.natural row.token.category.ordinal) ++
          ([' ', ' '] ++ (Text.alignLeft 14 row.token.category.name.toList ++
            ([' ', ' '] ++ (Hex.spaced row.record ++
              row.text.elim [] fun text => [' ', ' '] ++ Quoted.encode text))))))) := by
  rcases row with ⟨token, record, text⟩
  cases text <;> simp [Row.line]

theorem tells_line {row : Row} (packed : row.token.pack = .ok row.record) :
    Tells row.line row := by
  rcases Token.pack_eq_ok_iff.mp packed with ⟨packable, isRecord⟩
  have blanksWide : ([' ', ' '] : Text).length = 2 := rfl
  have offsetWide := Text.length_alignRight (length_integer_of_isPackable packable)
  have ordinalWide := Text.length_alignRight (length_natural_ordinal row.token.category)
  have nameWide := Text.length_alignLeft (length_name row.token.category)
  have recordWide : (Hex.spaced row.record).length = 14 := by
    rw [Hex.length_spaced, isRecord, Token.length_record]
    rfl
  have wire : Text.column 35 14 row.line = Hex.spaced row.record := by
    rw [line_eq, Text.column_add_append blanksWide, Text.column_add_append offsetWide,
      Text.column_add_append blanksWide, Text.column_add_append ordinalWide,
      Text.column_add_append blanksWide, Text.column_add_append nameWide,
      Text.column_add_append blanksWide, Text.column_zero_append recordWide]
  constructor
  case offset =>
    rw [line_eq, Text.column_add_append blanksWide, Text.column_zero_append offsetWide,
      Text.filter_alignRight _ (blank_notMem_integer _)]
  case ordinal =>
    rw [line_eq, Text.column_add_append blanksWide, Text.column_add_append offsetWide,
      Text.column_add_append blanksWide, Text.column_zero_append ordinalWide]
    exact Text.filter_alignRight _ (blank_notMem_integer row.token.category.ordinal)
  case category =>
    rw [line_eq, Text.column_add_append blanksWide, Text.column_add_append offsetWide,
      Text.column_add_append blanksWide, Text.column_add_append ordinalWide,
      Text.column_add_append blanksWide, Text.column_zero_append nameWide,
      Text.filter_alignLeft _ (blank_notMem_name _)]
  case wire => exact wire
  case token =>
    rw [wire]
    refine ⟨Hex.parse?_spaced row.record, ?_⟩
    rw [isRecord]
    exact Token.unpack_record packable
  case text =>
    rw [line_eq, Text.drop_add_append blanksWide, Text.drop_add_append offsetWide,
      Text.drop_add_append blanksWide, Text.drop_add_append ordinalWide,
      Text.drop_add_append blanksWide, Text.drop_add_append nameWide,
      Text.drop_add_append blanksWide, Text.drop_add_append recordWide, List.drop_zero]

/-- A line is all visible, so it does not break. -/
theorem isPrintable_of_mem_line {row : Row} {c : Char} (cMem : c ∈ row.line) :
    Printable.isPrintable c := by
  have blank {d : Char} (isBlank : d = ' ') : Printable.isPrintable d := by
    rw [isBlank]
    rfl
  have gap {d : Char} (inGap : d ∈ [' ', ' ']) : Printable.isPrintable d :=
    blank (by simpa using inGap)
  have ofDigit {d : Char} (inOrdinal : d ∈ Numeral.natural row.token.category.ordinal) :
      Printable.isPrintable d :=
    Printable.isPrintable_of_isDigit (Numeral.isDigit_of_mem_natural inOrdinal)
  have ofText {d : Char}
      (inText : d ∈ row.text.elim [] fun text => [' ', ' '] ++ Quoted.encode text) :
      Printable.isPrintable d := by
    cases shown : row.text with
    | none => simp [shown] at inText
    | some text =>
        rw [shown] at inText
        exact (List.mem_append.mp inText).elim gap Quoted.isPrintable_of_mem_encode
  simp only [line_eq, List.mem_append] at cMem
  rcases cMem with inGap | inOffset | inGap | inOrdinal | inGap | inName | inGap | inRecord | inText
  · exact gap inGap
  · exact (Text.mem_alignRight inOffset).elim blank Printable.isPrintable_of_mem_integer
  · exact gap inGap
  · exact (Text.mem_alignRight inOrdinal).elim blank ofDigit
  · exact gap inGap
  · exact (Text.mem_alignLeft inName).elim blank (Printable.isPrintable_of_mem_name _ c)
  · exact gap inGap
  · exact Printable.isPrintable_of_mem_spaced inRecord
  · exact ofText inText

theorem feed_notMem_line (row : Row) : '\n' ∉ row.line := by
  intro feedMem
  exact absurd (isPrintable_of_mem_line feedMem) (by decide)

theorem splitAt_render (count : Nat) (rows : List Row) :
    Text.splitAt '\n' (header count ++ rows.flatMap Row.render) =
      headerLine count :: (rows.map Row.line ++ [[]]) := by
  have headerWhole : '\n' ∉ headerLine count := by
    intro feedMem
    rcases List.mem_append.mp feedMem with inFront | isClosing
    · rcases List.mem_append.mp inFront with inWord | inCount
      · exact absurd inWord (by decide)
      · exact absurd (Numeral.isDigit_of_mem_natural inCount) (by decide)
    · exact absurd isClosing (by decide)
  have linesWhole : ∀ line ∈ rows.map Row.line, '\n' ∉ line := by
    intro line lineMem
    rcases List.mem_map.mp lineMem with ⟨row, _, rfl⟩
    exact feed_notMem_line row
  have inRow : rows.flatMap Row.render = (rows.map Row.line).flatMap (· ++ ['\n']) := by
    rw [List.flatMap_map]
    rfl
  rw [header, List.append_assoc, List.singleton_append, Text.splitAt_append_cons headerWhole,
    inRow, Text.splitAt_flatMap_concat linesWhole]

/-- Whether something written is a dump of some rows: it ends its lines, the first of them counts
the tokens, and the others tell one row each, in order. -/
def IsDump (count : Nat) (rows : List Row) (written : Text) : Prop :=
  ∃ lines, Text.splitAt '\n' written = headerLine count :: (lines ++ [[]]) ∧
    List.Forall₂ Tells lines rows

theorem isDump_render (count : Nat) {rows : List Row}
    (packed : ∀ row ∈ rows, row.token.pack = .ok row.record) :
    IsDump count rows (header count ++ rows.flatMap Row.render) := by
  refine ⟨rows.map Row.line, splitAt_render count rows, ?_⟩
  rw [List.forall₂_map_left_iff, List.forall₂_same]
  exact fun row rowMem => tells_line (packed row rowMem)

end Lines

/-- The row of a token whose text has been asked for. Only if there is one, or none is wanted, is
the token packed. -/
def rowOf (token : Token) (text : Except Failure (Option Text)) : Except Failure Row := do
  let text ← text
  token.pack.map fun record => ⟨token, record, text⟩

theorem rowOf_eq_ok_iff {text : Except Failure (Option Text)} {row : Row} :
    rowOf token text = .ok row ↔
      row.token = token ∧ text = .ok row.text ∧ token.pack = .ok row.record := by
  rw [rowOf, Except.bind_eq_ok_iff]
  constructor
  · rintro ⟨shown, read, made⟩
    rcases Except.map_eq_ok_iff.mp made with ⟨record, packed, rfl⟩
    exact ⟨rfl, read, packed⟩
  · rintro ⟨rfl, read, packed⟩
    exact ⟨row.text, read, Except.map_eq_ok_iff.mpr ⟨row.record, packed, rfl⟩⟩

theorem rowOf_eq_error_iff {text : Except Failure (Option Text)} {failure : Failure} :
    rowOf token text = .error failure ↔
      text = .error failure ∨ ∃ shown, text = .ok shown ∧ token.pack = .error failure := by
  rw [rowOf, Except.bind_eq_error_iff]
  simp only [Except.map_eq_error_iff]

/-- The rows of tokens in order, up to the first one without a row. -/
def rowsUpTo (texts : Nat → Token → Except Failure (Option Text)) (tokens : List Token) :
    Partial Row :=
  .untilFailure (tokens.mapIdx fun index token => rowOf token (texts index token))

/-- The text that a member of a sequence is shown with. -/
def textAt (name : Text) (source : Source) (tokens : List Token) (index : Nat) (token : Token) :
    Except Failure (Option Text) :=
  (source.readSpan (toMark token) (nextOffset tokens[index + 1]?) name).1.map some

theorem rowsUpTo_cons (texts : Nat → Token → Except Failure (Option Text)) (token : Token)
    (rest : List Token) :
    rowsUpTo texts (token :: rest) =
      match rowOf token (texts 0 token) with
      | .error failure => .failed failure
      | .ok row => (rowsUpTo (fun index => texts (index + 1)) rest).cons row := by
  rw [rowsUpTo, List.mapIdx_cons]
  cases rowOf token (texts 0 token) <;> rfl

theorem rowsWithTexts_eq (name : Text) (source : Source) (tokens : List Token) :
    rowsWithTexts name source tokens =
      (rowsUpTo (textAt name source tokens) tokens, source) := by
  induction tokens with
  | nil => rfl
  | cons token rest inductionHypothesis =>
      have first : textAt name source (token :: rest) 0 token =
          ((toMark token).textIn (nextOffset rest.head?) name source.contents).map some := by
        rw [textAt, Source.readSpan_eq, List.head?_eq_getElem?]
        rfl
      have others : (fun index => textAt name source (token :: rest) (index + 1)) =
          textAt name source rest := rfl
      rw [rowsWithTexts_cons, rowsUpTo_cons, first, others, inductionHypothesis]
      cases (toMark token).textIn (nextOffset rest.head?) name source.contents with
      | error failure => rfl
      | ok text =>
          simp only [Except.map, rowOf]
          cases token.pack <;> rfl

theorem bareRows_eq (tokens : List Token) :
    bareRows tokens = rowsUpTo (fun _ _ => .ok none) tokens := by
  induction tokens with
  | nil => rfl
  | cons token rest inductionHypothesis =>
      rw [bareRows, ofMark_toMark, rowsUpTo_cons, inductionHypothesis]
      simp only [rowOf]
      cases token.pack <;> rfl

/-- Whether rows are those of all tokens before the first bad one, and `failure` is what is wrong
with that one. -/
structure Shows (texts : Nat → Token → Except Failure (Option Text)) (tokens : List Token)
    (rows : List Row) (failure : Option Failure) : Prop where
  good : ∀ (index : Nat) row, rows[index]? = some row →
    tokens[index]? = some row.token ∧ texts index row.token = .ok row.text ∧
      row.token.pack = .ok row.record
  complete : failure = none → rows.length = tokens.length
  bad : ∀ reason, failure = some reason →
    ∃ token, tokens[rows.length]? = some token ∧
      (texts rows.length token = .error reason ∨
        ∃ shown, texts rows.length token = .ok shown ∧ token.pack = .error reason)

theorem shows_rowsUpTo (texts : Nat → Token → Except Failure (Option Text)) (tokens : List Token) :
    Shows texts tokens (rowsUpTo texts tokens).items (rowsUpTo texts tokens).failure where
  good index row produced := by
    have made := Partial.getElem?_of_untilFailure produced
    rw [List.getElem?_mapIdx, Option.map_eq_some_iff] at made
    rcases made with ⟨token, found, isRow⟩
    rcases rowOf_eq_ok_iff.mp isRow with ⟨rfl, read, packed⟩
    exact ⟨found, read, packed⟩
  complete finished := by
    rw [rowsUpTo, Partial.length_untilFailure finished, List.length_mapIdx]
  bad reason stopped := by
    have failed := Partial.getElem?_length_untilFailure stopped
    rw [List.getElem?_mapIdx, Option.map_eq_some_iff] at failed
    rcases failed with ⟨token, found, noRow⟩
    exact ⟨token, found, rowOf_eq_error_iff.mp noRow⟩

/-- The tokens and texts that a dump shows are the first ones that reading the texts gives. -/
theorem exists_texts_eq_append (name : Text) (source : Source) (tokens : List Token) :
    ∃ behind, (source.texts name tokens).1.items =
      ((rowsWithTexts name source tokens).1.items.map
        fun row => (row.token, row.text.getD [])) ++ behind := by
  induction tokens with
  | nil => exact ⟨[], rfl⟩
  | cons token rest inductionHypothesis =>
      rcases inductionHypothesis with ⟨behind, shown⟩
      rw [Source.texts, Source.readSpan_eq, rowsWithTexts_cons]
      cases (toMark token).textIn (nextOffset rest.head?) name source.contents with
      | error failure => exact ⟨[], rfl⟩
      | ok text =>
          cases token.pack with
          | error fault => exact ⟨_, rfl⟩
          | ok record => exact ⟨behind, congrArg ((token, text) :: ·) shown⟩

theorem getElem?_texts_of_rowsWithTexts {index : Nat} {row : Row}
    (produced : (rowsWithTexts name source tokens).1.items[index]? = some row) :
    ∃ text, row.text = some text ∧
      (source.texts name tokens).1.items[index]? = some (row.token, text) := by
  have shown : ∃ text, row.text = some text := by
    have made := produced
    rw [rowsWithTexts_eq] at made
    have read := ((shows_rowsUpTo _ tokens).good index row made).2.1
    rcases Except.map_eq_ok_iff.mp read with ⟨text, _, isText⟩
    exact ⟨text, isText.symm⟩
  rcases shown with ⟨text, isText⟩
  rcases exists_texts_eq_append name source tokens with ⟨behind, split⟩
  have inside := (List.getElem?_eq_some_iff.mp produced).1
  refine ⟨text, isText, ?_⟩
  rw [split, List.getElem?_append_left (by simpa using inside), List.getElem?_map, produced,
    Option.map_some, isText, Option.getD_some]

theorem Shows.isDump {texts : Nat → Token → Except Failure (Option Text)} {rows : List Row}
    {failure : Option Failure} (shows : Shows texts tokens rows failure) (count : Nat) :
    IsDump count rows (header count ++ rows.flatMap Row.render) := by
  apply isDump_render
  intro row rowMem
  rcases List.mem_iff_getElem?.mp rowMem with ⟨index, found⟩
  exact (shows.good index row found).2.2

/-- A dump writes its header and the rows of all tokens before the first bad one, whole and in
order, and no more; with a source, a token whose text cannot be read is bad for that even if it
cannot be packed, either. Each row stands on a line of its own that tells the token, its record and
its text, and the record on that line is read back as the token. The texts are those that reading
the texts gives. -/
theorem dump_stops_at_first_bad_token (source : Source) (name : Text) (tokens : List Token) :
    (∃ rows failure written,
      withTexts tokens source name = ((written, failure), source) ∧
      written = header tokens.length ++ rows.flatMap Row.render ∧
      IsDump tokens.length rows written ∧
      Shows (textAt name source tokens) tokens rows failure ∧
      ∀ (index : Nat) row, rows[index]? = some row → ∃ text, row.text = some text ∧
        (source.texts name tokens).1.items[index]? = some (row.token, text)) ∧
    ∃ rows failure written,
      bare tokens = (written, failure) ∧
      written = header tokens.length ++ rows.flatMap Row.render ∧
      IsDump tokens.length rows written ∧
      Shows (fun _ _ => .ok none) tokens rows failure := by
  have shownWithTexts := shows_rowsUpTo (textAt name source tokens) tokens
  have shownBare := shows_rowsUpTo (fun _ _ => .ok none) tokens
  refine ⟨⟨_, _, _, ?_, rfl, shownWithTexts.isDump _, shownWithTexts, ?_⟩, _, _, _, ?_, rfl,
    shownBare.isDump _, shownBare⟩
  · rw [withTexts, rowsWithTexts_eq]
    rfl
  · intro index row produced
    apply getElem?_texts_of_rowsWithTexts
    rw [rowsWithTexts_eq]
    exact produced
  · rw [bare, bareRows_eq]
    rfl

/-- Of a token with neither a text nor a record, the text is what is missed. -/
example : (withTexts [Token.mk (-1) .plus] ⟨[0x2b], 0⟩ "utf-8".toList).1 =
    ("Tokens (1)\n".toList, some (.refusal (.negativeOffset (-1)))) := by
  rfl

end Dump

end Lexeme
