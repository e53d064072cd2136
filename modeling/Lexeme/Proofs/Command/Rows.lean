import Lexeme.Command.Run
import Lexeme.Proofs.Locate.Failure

/-!
# The rows of a report

A scan takes the texts of its tokens from the source in order, and a token file's tokens are
looked up by their records one after the other. Where every token has a text, both give the
same rows, and a report without texts does not depend on them.
-/

namespace Lexeme

namespace Report

/-- A report without texts depends on the tokens only. -/
theorem render_hidden (format : Format) (rows : List Row) :
    render format false (rows.map fun row => ⟨row.token, none⟩) = render format false rows := by
  have sameLine (row : Row) : tableLine false ⟨row.token, none⟩ = tableLine false row := rfl
  have sameObject (row : Row) : jsonObject false ⟨row.token, none⟩ = jsonObject false row := rfl
  cases format with
  | table => simp only [render, table, List.flatMap_map, sameLine]
  | json => simp only [render, json, List.isEmpty_map, List.map_map, Function.comp_def, sameObject]

end Report

namespace Command.Options

variable {options : Options} {tokens : List Token} {source : Source}

def rowsWith (tokens : List Token) (texts : List Text) : List Report.Row :=
  (tokens.zip texts).map fun item => ⟨item.1, some item.2⟩

theorem lookUpRows_hidden (hidden : options.showText = false) (records : List Bytes) :
    options.lookUpRows records source tokens = .ok (tokens.map (⟨·, none⟩)) := by
  induction tokens with
  | nil => rfl
  | cons token tokens inductionHypothesis =>
      rw [lookUpRows, hidden, if_neg Bool.false_ne_true, inductionHypothesis]
      rfl

/-- Behind some tokens of a sequence, the next one is looked up with the text that reading in
order gives. -/
theorem packedText_behind (source : Source) (encoding : Text) (before : List Token) {token : Token}
    (increasing : (before ++ token :: tokens).Pairwise (·.offset < ·.offset))
    (packable : ∀ member ∈ before ++ token :: tokens, member.IsPackable) :
    source.packedText token ((before ++ token :: tokens).map Token.record) encoding =
      (Mark.textIn (toMark token) (nextOffset tokens.head?) encoding source.contents, source) := by
  have found : (before ++ token :: tokens)[before.length]? = some token := by simp
  have next : (before ++ token :: tokens)[before.length + 1]? = tokens.head? := by
    rw [List.getElem?_append_right (by omega), List.head?_eq_getElem?]
    simp
  rw [Source.packedText_of_increasing source encoding increasing packable found, next]

theorem lookUpRows_shown (shown : options.showText = true) (before : List Token)
    (increasing : (before ++ tokens).Pairwise (·.offset < ·.offset))
    (packable : ∀ token ∈ before ++ tokens, token.IsPackable) {texts : List Text}
    (read : Source.readings options.encoding source.contents tokens = texts.map .ok) :
    options.lookUpRows ((before ++ tokens).map Token.record) source tokens =
      .ok (rowsWith tokens texts) := by
  induction tokens generalizing before texts with
  | nil => rfl
  | cons token tokens inductionHypothesis =>
      cases texts with
      | nil => simp [Source.readings] at read
      | cons text texts =>
          simp only [Source.readings, List.map_cons, List.cons.injEq] at read
          have looked := packedText_behind source options.encoding before increasing packable
          rw [read.1] at looked
          have sameSequence : before ++ token :: tokens = (before ++ [token]) ++ tokens := by simp
          have rest := inductionHypothesis (before ++ [token]) (sameSequence ▸ increasing)
            (sameSequence ▸ packable) read.2
          rw [lookUpRows, if_pos shown, looked, sameSequence]
          simp only [rest]
          rfl

/-- Tokens that are looked up one after the other have texts in order as well. -/
theorem isReadable_of_lookUpRows (shown : options.showText = true) (before : List Token)
    (increasing : (before ++ tokens).Pairwise (·.offset < ·.offset))
    (packable : ∀ token ∈ before ++ tokens, token.IsPackable) {rows : List Report.Row}
    (lookedUp : options.lookUpRows ((before ++ tokens).map Token.record) source tokens =
      .ok rows) : Source.IsReadable options.encoding source.contents tokens := by
  induction tokens generalizing before rows with
  | nil => exact Source.isReadable_nil
  | cons token tokens inductionHypothesis =>
      rw [lookUpRows, if_pos shown,
        packedText_behind source options.encoding before increasing packable] at lookedUp
      rw [Source.isReadable_cons_iff]
      cases read : Mark.textIn (toMark token) (nextOffset tokens.head?) options.encoding
          source.contents with
      | error failure =>
          rw [read] at lookedUp
          contradiction
      | ok text =>
          rw [read] at lookedUp
          rcases Except.map_eq_ok_iff.mp lookedUp with ⟨others, lookedUpRest, _⟩
          have sameSequence : before ++ token :: tokens = (before ++ [token]) ++ tokens := by simp
          rw [sameSequence] at lookedUpRest increasing packable
          exact ⟨⟨text, rfl⟩,
            inductionHypothesis (before ++ [token]) increasing packable lookedUpRest⟩

/-- The rows that looking up gives are reported as the tokens with their texts are. -/
theorem report_lookUpRows (options : Options) (source : Source)
    (increasing : tokens.Pairwise (·.offset < ·.offset))
    (packable : ∀ token ∈ tokens, token.IsPackable) {texts : List Text}
    (read : Source.readings options.encoding source.contents tokens = texts.map .ok) :
    ∃ rows, options.lookUpRows (tokens.map Token.record) source tokens = .ok rows ∧
      options.report rows = options.report (rowsWith tokens texts) := by
  cases shown : options.showText with
  | true => exact ⟨_, lookUpRows_shown shown [] increasing packable read, rfl⟩
  | false =>
      refine ⟨_, lookUpRows_hidden shown _, ?_⟩
      have sameLength : tokens.length = texts.length := by
        rw [← Source.length_readings options.encoding source.contents tokens, read,
          List.length_map]
      have sameTokens : (rowsWith tokens texts).map (fun row => Report.Row.mk row.token none) =
          tokens.map (Report.Row.mk · none) := by
        calc (rowsWith tokens texts).map (fun row => Report.Row.mk row.token none)
          _ = ((tokens.zip texts).map Prod.fst).map (Report.Row.mk · none) := by
            rw [rowsWith, List.map_map, List.map_map]
            rfl
          _ = tokens.map (Report.Row.mk · none) := by
            rw [List.map_fst_zip (Nat.le_of_eq sameLength)]
      rw [report, report, shown, ← Report.render_hidden _ (rowsWith tokens texts), sameTokens]

end Command.Options

end Lexeme
