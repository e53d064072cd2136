import Lexeme.Proofs.Encoding.Origin
import Lexeme.Proofs.Locate.Span
import Lexeme.Proofs.Probe
import Lexeme.Proofs.Word.Order

/-!
# Classification by bytes

Words are cut from bytes and classified as texts. The two never disagree: in an encoding that
keeps ASCII a word is a literal exactly if its bytes are those of the literal, so the tokens of a
source do not depend on the encoding. In no encoding at all can a run of bytes become a literal
that is cut off as a word of its own.
-/

namespace Lexeme

namespace Slice

variable {encoding : Encoding} {name : Text} {slice : Bytes} {slices : List Bytes}

/-- The category of the literal that some bytes are the ASCII form of. -/
def category (slice : Bytes) : Category :=
  categoryOf (asciiText slice)

theorem category_asciiBytes : ∀ group ∈ cascade, ∀ entry ∈ group.literals,
    category (asciiBytes entry.1) = entry.2 := by
  intro group groupMem entry entryMem
  rw [category, asciiText_asciiBytes (literal_isAscii group groupMem entry entryMem)]
  exact categoryOf_literal group groupMem entry entryMem

theorem category_eq_unclassified_iff :
    category slice = .unclassified ↔
      ∀ group ∈ cascade, ∀ entry ∈ group.literals, asciiBytes entry.1 ≠ slice := by
  rw [category, categoryOf_eq_unclassified_iff]
  constructor
  · rintro noLiteral group groupMem entry entryMem rfl
    apply noLiteral group groupMem entry entryMem
    exact (asciiText_asciiBytes (literal_isAscii group groupMem entry entryMem)).symm
  · intro noBytes group groupMem entry entryMem same
    apply noBytes group groupMem entry entryMem
    rw [same, asciiBytes_asciiText]

/-- A text that is not all ASCII is no literal. -/
theorem categoryOf_of_not_ascii {text : Text} (notAscii : ¬∀ c ∈ text, c.toNat < 0x80) :
    categoryOf text = .unclassified := by
  apply categoryOf_eq_unclassified_iff.mpr
  rintro group groupMem entry entryMem rfl
  exact notAscii (literal_isAscii group groupMem entry entryMem)

theorem isAscii_of_asciiText (ascii : ∀ c ∈ asciiText slice, c.toNat < 0x80) : IsAscii slice := by
  intro byte byteMem
  have small := ascii (Char.ofNat byte.toNat) (List.mem_map_of_mem byteMem)
  rwa [toNat_ofNat_byte] at small

/-- The text of a slice is classified as its bytes are. -/
theorem categoryOf_decoded {text : Text} (compatible : encoding.isAsciiCompatible = true)
    (decoded : encoding.decode slice = .ok text) : categoryOf text = category slice := by
  by_cases ascii : IsAscii slice
  · have bytewise := Encoding.bytewise_of_isAsciiCompatible compatible
    rw [Encoding.decode_eq_asciiText bytewise ascii] at decoded
    rw [category, Except.ok.inj decoded]
  · rw [categoryOf_of_not_ascii, category, categoryOf_of_not_ascii]
    · intro textAscii
      exact ascii (isAscii_of_asciiText textAscii)
    · intro textAscii
      exact ascii (Encoding.isAscii_of_decode compatible decoded textAscii)

theorem categoryOf_reading {text : Text} (compatible : encoding.isAsciiCompatible = true)
    (read : reading encoding slice = .ok text) : categoryOf text = category slice := by
  rw [reading] at read
  split at read
  · exact categoryOf_decoded compatible read
  · exact categoryOf_decoded rfl read

/-- Where the tables have more than keywords, one of the characters is cut off by itself. -/
theorem keyword_or_literalByte : ∀ group ∈ cascade, ∀ entry ∈ group.literals,
    entry.2 = .function ∨ entry.2 = .conditional ∨
      entry.1.any (fun c => IsLiteralByte (UInt8.ofNat c.toNat)) = true := by
  decide

/-- A run has no literal byte, so its text is no literal but a keyword in any encoding. -/
theorem categoryOf_run {text : Text} (isRun : IsRun slice)
    (decoded : encoding.decode slice = .ok text) :
    categoryOf text ∈ [.function, .conditional, .unclassified] := by
  simp only [List.mem_cons, List.not_mem_nil, or_false]
  by_cases unclassified : categoryOf text = .unclassified
  · exact Or.inr (Or.inr unclassified)
  · rcases exists_literal unclassified with ⟨group, groupMem, entry, entryMem, rfl⟩
    rw [categoryOf_literal group groupMem entry entryMem]
    rcases keyword_or_literalByte group groupMem entry entryMem with
      isFunction | isConditional | cutOff
    · exact Or.inl isFunction
    · exact Or.inr (Or.inl isConditional)
    · rcases List.any_eq_true.mp cutOff with ⟨c, cMem, literalByte⟩
      have ascii := literal_isAscii group groupMem entry entryMem c cMem
      have byteMem := Encoding.byte_mem_of_decode decoded cMem ascii
      exact absurd (of_decide_eq_true literalByte) (isRun.2 _ byteMem)

/-- The token that a slice becomes behind some bytes. -/
def token (slices : List Bytes) (index : Nat) (slice : Bytes) : Token :=
  ⟨(slices.take index).flatten.length, category slice⟩

theorem flatten_eq_of_getElem? {index : Nat} (found : slices[index]? = some slice) :
    slices.flatten =
      (slices.take index).flatten ++ (slice ++ (slices.drop (index + 1)).flatten) := by
  rcases List.getElem?_eq_some_iff.mp found with ⟨inside, rfl⟩
  conv_lhs => rw [← List.take_append_drop index slices, List.drop_eq_getElem_cons inside]
  rw [List.flatten_append, List.flatten_cons]

/-- The bytes from the start of a slice to the start of the next one are the slice. -/
theorem sourceBytes_flatten {index : Nat} (found : slices[index]? = some slice) :
    sourceBytes slices.flatten (slices.take index).flatten.length
      (slices[index + 1]?.map fun _ => ((slices.take (index + 1)).flatten.length : Int)) =
        slice := by
  have taken : slices.take (index + 1) = slices.take index ++ [slice] := by
    rw [List.take_add_one, found, Option.toList_some]
  rw [flatten_eq_of_getElem? found, taken, List.flatten_append, List.flatten_singleton,
    ← List.head?_drop]
  generalize (slices.take index).flatten = before
  cases slices.drop (index + 1) with
  | nil => simp [sourceBytes]
  | cons next rest =>
      have width : (((before ++ slice).length : Int) - before.length).toNat = slice.length := by
        rw [List.length_append]
        omega
      simp only [sourceBytes, List.head?_cons, Option.map_some, width, Int.toNat_natCast,
        List.drop_left, List.take_left]

end Slice

section

variable {encoding : Encoding} {name : Text} {source : Bytes} {tokens : List Token}

/-- The tokens of a source are those of its slices, in each encoding that keeps ASCII. -/
theorem getElem?_tokens {slices : List Bytes} (named : encoding.HasName name)
    (compatible : encoding.isAsciiCompatible = true)
    (factorises : Slice.Factorises slices source) (tokenized : tokenize source name = .ok tokens)
    (index : Nat) : tokens[index]? = slices[index]?.map (Slice.token slices index) := by
  rcases tokenize_eq_ok_iff.mp tokenized with ⟨complete, rfl⟩
  have given := Piece.give_words (Piece.isProper_of_mem_cut source) named 0
  rw [← Piece.eq_of_factorises factorises] at given
  rcases given with ⟨good, rest, rfl, sameLength, items, ending⟩
  rcases ending with ⟨rfl, _⟩ | ⟨_, _, _, _, _, _, failure⟩
  · rw [List.append_nil]
    by_cases inside : index < good.length
    · rcases items index inside with ⟨text, read, item⟩
      rw [Token.classifyAll, List.getElem?_map, scan, item, List.getElem?_eq_getElem inside]
      simp only [Option.map_some, Token.ofWord,
        Slice.categoryOf_reading compatible read]
      rw [Slice.token, Int.zero_add]
    · rw [Token.classifyAll, List.getElem?_map, scan, List.getElem?_eq_none (by omega),
        List.getElem?_eq_none (by omega)]
      rfl
  · rw [scan, failure] at complete
    contradiction

theorem nextOffset_tokens {slices : List Bytes} (named : encoding.HasName name)
    (compatible : encoding.isAsciiCompatible = true)
    (factorises : Slice.Factorises slices source) (tokenized : tokenize source name = .ok tokens)
    (index : Nat) : nextOffset tokens[index]? =
      slices[index]?.map fun _ => ((slices.take index).flatten.length : Int) := by
  rw [getElem?_tokens named compatible factorises tokenized]
  cases slices[index]? <;> rfl

/-- The bytes of a token are the slice that it was made of. -/
theorem category_of_tokenize (named : encoding.HasName name)
    (compatible : encoding.isAsciiCompatible = true)
    (tokenized : tokenize source name = .ok tokens) {index : Nat} {token : Token}
    (found : tokens[index]? = some token) :
    token.category =
      Slice.category (sourceBytes source token.offset (nextOffset tokens[index + 1]?)) := by
  have factorises := Piece.factorises_cut source
  have made := getElem?_tokens named compatible factorises tokenized index
  rw [found] at made
  rcases Option.map_eq_some_iff.mp made.symm with ⟨slice, sliceFound, rfl⟩
  have bytes := Slice.sourceBytes_flatten sliceFound
  rw [factorises.joined] at bytes
  rw [nextOffset_tokens named compatible factorises tokenized, Slice.token, bytes]

theorem tokens_eq_of_tokenize {other : Encoding} {otherName : Text} {others : List Token}
    (named : encoding.HasName name) (compatible : encoding.isAsciiCompatible = true)
    (otherNamed : other.HasName otherName) (otherCompatible : other.isAsciiCompatible = true)
    (tokenized : tokenize source name = .ok tokens)
    (otherTokenized : tokenize source otherName = .ok others) : tokens = others := by
  have factorises := Piece.factorises_cut source
  apply List.ext_getElem?
  intro index
  rw [getElem?_tokens named compatible factorises tokenized,
    getElem?_tokens otherNamed otherCompatible factorises otherTokenized]

/-- A word that was scanned from a run. -/
theorem category_of_run {slices : List Bytes} (named : encoding.HasName name)
    (factorises : Slice.Factorises slices source) {index : Nat} {slice : Bytes}
    (found : slices[index]? = some slice) (isRun : Slice.IsRun slice) {offset : Int} {word : Text}
    (scanned : (scan source name).items[index]? = some (offset, word)) :
    categoryOf word ∈ [.function, .conditional, .unclassified] := by
  have given := Piece.give_words (Piece.isProper_of_mem_cut source) named 0
  rw [← Piece.eq_of_factorises factorises] at given
  rcases given with ⟨good, rest, rfl, sameLength, items, _⟩
  have inside : index < good.length := by
    rw [← sameLength]
    exact (List.getElem?_eq_some_iff.mp scanned).1
  rcases items index inside with ⟨text, read, item⟩
  rw [List.getElem?_append_left inside, List.getElem?_eq_getElem inside, Option.some.injEq] at found
  subst found
  rw [scan, item, Option.some.injEq, Prod.mk.injEq] at scanned
  rw [Slice.reading, if_pos isRun, scanned.2] at read
  exact Slice.categoryOf_run isRun read

end

/-- Tokens are determined by the bytes of the source: they are the same in all encodings that are
accepted and in which they exist, and a token has the category of the literal whose ASCII bytes
its bytes are. In no encoding is the word of a run classified as anything but a keyword. -/
theorem tokens_are_determined_by_bytes (source : Bytes) :
    (∀ first ∈ Encoding.compatible, ∀ second ∈ Encoding.compatible,
      ∀ firstName secondName, first.HasName firstName → second.HasName secondName →
        ∀ tokens others, tokenize source firstName = .ok tokens →
          tokenize source secondName = .ok others → tokens = others) ∧
    (∀ encoding ∈ Encoding.compatible, ∀ name, encoding.HasName name →
      ∀ tokens, tokenize source name = .ok tokens →
        ∀ (index : Nat) token, tokens[index]? = some token →
        let bytes := sourceBytes source token.offset (nextOffset tokens[index + 1]?)
        (token.category = .unclassified ↔
          ∀ group ∈ cascade, ∀ entry ∈ group.literals, asciiBytes entry.1 ≠ bytes) ∧
        ∀ group ∈ cascade, ∀ entry ∈ group.literals,
          asciiBytes entry.1 = bytes → token.category = entry.2) ∧
    ∀ (encoding : Encoding) (name : Text), encoding.HasName name →
      ∀ slices, Slice.Factorises slices source →
        ∀ (index : Nat) slice, slices[index]? = some slice →
        Slice.IsRun slice → ∀ offset word, (scan source name).items[index]? = some (offset, word) →
          (Token.ofWord offset word).category ∈ [.function, .conditional, .unclassified] ∧
          ∀ token, Token.classify offset word = .ok token → token = Token.ofWord offset word := by
  have accepted : ∀ encoding ∈ Encoding.compatible, encoding.isAsciiCompatible = true := by
    decide
  refine ⟨?_, ?_, ?_⟩
  · intro first firstMem second secondMem firstName secondName firstNamed secondNamed tokens others
      tokenized otherTokenized
    exact tokens_eq_of_tokenize firstNamed (accepted first firstMem) secondNamed
      (accepted second secondMem) tokenized otherTokenized
  · intro encoding encodingMem name named tokens tokenized index token found
    have sameCategory := category_of_tokenize named (accepted encoding encodingMem) tokenized found
    refine ⟨?_, ?_⟩
    · rw [sameCategory]
      exact Slice.category_eq_unclassified_iff
    · intro group groupMem entry entryMem same
      rw [sameCategory, ← same]
      exact Slice.category_asciiBytes group groupMem entry entryMem
  · intro encoding name named slices factorises index slice found isRun offset word scanned
    refine ⟨category_of_run named factorises found isRun scanned, ?_⟩
    intro token classified
    exact Token.eq_ofWord_of_classify classified

/-- An accent is one character in UTF-8 and two in Latin-1, and nothing comes of that. -/
theorem tokens_are_determined_by_bytes_of_accent :
    Encoding.utf8.HasName "utf-8".toList ∧ Encoding.latin1.HasName "latin-1".toList ∧
      (∃ tokens, tokenize [0x66, 0x75, 0x6e, 0x2b, 0xc3, 0xa9] "utf-8".toList = .ok tokens ∧
        tokenize [0x66, 0x75, 0x6e, 0x2b, 0xc3, 0xa9] "latin-1".toList = .ok tokens ∧
        tokens = [⟨0, .function⟩, ⟨3, .plus⟩, ⟨4, .unclassified⟩]) ∧
      (scan [0x66, 0x75, 0x6e, 0x2b, 0xc3, 0xa9] "utf-8".toList).items[2]? =
        some (4, "é".toList) ∧
      (Token.ofWord 4 "é".toList).category ∈ [.function, .conditional, .unclassified] := by
  have latin1 : Encoding.latin1.HasName "latin-1".toList := ⟨by decide, rfl⟩
  have cut : Piece.cut [0x66, 0x75, 0x6e, 0x2b, 0xc3, 0xa9] =
      [.run [0x66, 0x75, 0x6e], .mark [0x2b], .run [0xc3, 0xa9]] := by
    rfl
  have scanned : scan [0x66, 0x75, 0x6e, 0x2b, 0xc3, 0xa9] "utf-8".toList =
      ⟨[(0, "fun".toList), (3, "+".toList), (4, "é".toList)], none⟩ := by
    rw [scan, cut]
    simp only [Piece.words, Piece.text, Encoding.decodeNamed_eq Encoding.hasName_utf8]
    rfl
  have scannedOther : scan [0x66, 0x75, 0x6e, 0x2b, 0xc3, 0xa9] "latin-1".toList =
      ⟨[(0, "fun".toList), (3, "+".toList), (4, "Ã©".toList)], none⟩ := by
    rw [scan, cut]
    simp only [Piece.words, Piece.text, Encoding.decodeNamed_eq latin1]
    rfl
  have tokenized : tokenize [0x66, 0x75, 0x6e, 0x2b, 0xc3, 0xa9] "utf-8".toList =
      .ok [⟨0, .function⟩, ⟨3, .plus⟩, ⟨4, .unclassified⟩] := by
    rw [tokenize, scanned]
    rfl
  have tokenizedOther : ∃ others,
      tokenize [0x66, 0x75, 0x6e, 0x2b, 0xc3, 0xa9] "latin-1".toList = .ok others :=
    ⟨_, tokenize_eq_ok_iff.mpr ⟨by rw [scannedOther], rfl⟩⟩
  rcases tokens_are_determined_by_bytes [0x66, 0x75, 0x6e, 0x2b, 0xc3, 0xa9] with
    ⟨same, _, ofRuns⟩
  rcases tokenizedOther with ⟨others, tokenizedOther⟩
  have equal := same .utf8 (by decide) .latin1 (by decide) _ _ Encoding.hasName_utf8 latin1 _ _
    tokenized tokenizedOther
  have item : (scan [0x66, 0x75, 0x6e, 0x2b, 0xc3, 0xa9] "utf-8".toList).items[2]? =
      some (4, "é".toList) := by
    rw [scanned]
    rfl
  refine ⟨Encoding.hasName_utf8, latin1, ⟨_, tokenized, ?_, rfl⟩, item, ?_⟩
  · rw [equal]
    exact tokenizedOther
  · exact (ofRuns .utf8 _ Encoding.hasName_utf8 [[0x66, 0x75, 0x6e], [0x2b], [0xc3, 0xa9]]
      (by decide) 2 [0xc3, 0xa9] rfl (by decide) 4 _ item).1

end Lexeme
