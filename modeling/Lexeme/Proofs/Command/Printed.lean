import Lexeme.Proofs.Command.Failures
import Lexeme.Proofs.Report

/-!
# What commands print

A command prints a whole report or nothing. The tokens that it reports stand in a source, in a
token file or at the offset zero, so their offsets have written forms and no report of a command
breaks off.
-/

namespace Lexeme

theorem Source.mem_of_mem_texts {source : Source} {name : Text} {tokens : List Token}
    {item : Token × Text} (itemMem : item ∈ (source.texts name tokens).1.items) :
    item.1 ∈ tokens := by
  induction tokens generalizing source with
  | nil => cases itemMem
  | cons token tokens inductionHypothesis =>
      rw [texts] at itemMem
      split at itemMem
      · cases itemMem
      · rcases List.mem_cons.mp itemMem with rfl | later
        · exact List.mem_cons_self
        · exact List.mem_cons_of_mem _ (inductionHypothesis later)

namespace Command.Options

variable {options : Options} {directory : Directory} {data contents : Bytes}
variable {records : List Bytes} {tokens : List Token} {source : Source}

/-- Whether something printed is all of a report that the options ask for. -/
def IsReport (options : Options) (printed : Text) : Prop :=
  ∃ rows : List Report.Row, printed = options.report rows ∧
    Report.write (options.format.getD .table) options.showText (rows.map Report.Row.entry) =
      (printed, none)

theorem isReport_of_isWritable {rows : List Report.Row} (writable : ∀ row ∈ rows, row.IsWritable) :
    options.IsReport (options.report rows) :=
  ⟨rows, rfl, Report.write_of_isWritable writable _ _⟩

theorem isReport_of_finishScan (reports : options.output = none)
    (addressable : ∀ token ∈ tokens, token.IsAddressable)
    (done : (options.finishScan data tokens directory).result = .ok ()) :
    options.IsReport (options.finishScan data tokens directory).out := by
  simp only [finishScan, reports] at done ⊢
  rcases Action.result_bind_eq_ok_iff.mp done with ⟨items, drawn, _⟩
  have complete := Except.mapError_eq_ok_iff.mp drawn
  rw [Action.settle_bind_of_ok complete]
  apply isReport_of_isWritable
  intro row rowMem
  rcases List.mem_map.mp rowMem with ⟨item, itemMem, rfl⟩
  have isItems : ((Source.ofBytes data).texts options.encoding tokens).1.items = items := by
    simp only [Partial.complete] at complete
    split at complete
    · contradiction
    · exact Except.ok.inj complete
  rw [← isItems] at itemMem
  exact (addressable item.1 (Source.mem_of_mem_texts itemMem)).isWritable

theorem token_mem_of_lookUpRows {rows : List Report.Row}
    (lookedUp : options.lookUpRows records source tokens = .ok rows) :
    ∀ row ∈ rows, row.token ∈ tokens := by
  induction tokens generalizing source rows with
  | nil =>
      cases lookedUp
      simp
  | cons token tokens inductionHypothesis =>
      rw [lookUpRows] at lookedUp
      have behind {after : Source} {text : Option Text}
          (made : (options.lookUpRows records after tokens).map (⟨token, text⟩ :: ·) = .ok rows) :
          ∀ row ∈ rows, row.token ∈ token :: tokens := by
        rcases Except.map_eq_ok_iff.mp made with ⟨others, lookedUpOthers, rfl⟩
        intro row rowMem
        rcases List.mem_cons.mp rowMem with rfl | later
        · exact List.mem_cons_self
        · exact List.mem_cons_of_mem _ (inductionHypothesis lookedUpOthers row later)
      split at lookedUp
      · split at lookedUp
        · contradiction
        · exact behind lookedUp
      · exact behind lookedUp

theorem isReport_of_finishShow (packable : ∀ token ∈ tokens, token.IsPackable)
    (done : (options.finishShow records tokens source directory).result = .ok ()) :
    options.IsReport (options.finishShow records tokens source directory).out := by
  rcases Action.result_bind_eq_ok_iff.mp done with ⟨rows, settled, _⟩
  have lookedUp := Except.mapError_eq_ok_iff.mp settled
  rw [finishShow_of_rows lookedUp]
  apply isReport_of_isWritable
  intro row rowMem
  exact (packable row.token (token_mem_of_lookUpRows lookedUp row rowMem)).isWritable

/-- A command that comes to its end has printed a whole report, or has written a token file. -/
theorem isReport_of_perform (reports : options.command = .scan → options.output = none)
    (addressable : ∀ path data, directory.read path = .ok data →
      (data.length : Int) ≤ Source.maxIndex)
    (done : (options.perform directory).result = .ok ()) :
    options.IsReport (options.perform directory).out := by
  rw [perform] at done ⊢
  cases asked : options.command with
  | scan =>
      simp only [asked] at done ⊢
      rcases found_of_scanSource done with ⟨data, tokens, found⟩
      rw [scanSource_of_found found] at done ⊢
      rcases (isQuiet_dumpTexts (.ofBytes data)).exists_of_bind_ok done with
        ⟨_, finished, sameOut, _⟩
      rw [sameOut]
      exact isReport_of_finishScan (reports asked) (isAddressable_of_findSource addressable found)
        finished
  | «show» =>
      simp only [asked] at done ⊢
      rcases Action.result_bind_eq_ok_iff.mp done with ⟨⟨records, tokens, contents⟩, found, _⟩
      have found : options.findTokens directory = .ok (records, tokens, contents) := found
      rcases findTokens_eq_ok_iff.mp found with ⟨_, _, _, _, _, _, packable, _⟩
      rw [showTokens_of_found found] at done ⊢
      rcases (isQuiet_dumpTexts (.ofBytes contents)).exists_of_bind_ok done with
        ⟨source, finished, sameOut, _⟩
      rw [sameOut]
      exact isReport_of_finishShow packable finished
  | classify =>
      simp only [asked] at done ⊢
      rcases options.isQuiet_dumpWords.exists_of_bind_ok done with ⟨_, _, sameOut, _⟩
      rw [classifyWords, sameOut]
      apply isReport_of_isWritable
      intro row rowMem
      rcases List.mem_map.mp rowMem with ⟨word, _, rfl⟩
      exact Numeral.isWritable_of_le (by simp [Token.ofWord]) (by simp [Token.ofWord])

end Command.Options

end Lexeme
