import Lexeme.Proofs.Command.Debugging

/-!
# What options give

Whatever is given on a command line is given by an option of the command: a flag gives nothing but
itself, and an option with a value gives a value that it accepts. So an option with a value that
stands on an accepted command line has a value, be it blank.
-/

namespace Lexeme.Command

/-- What an option may give. -/
inductive OptionRule.Gives (option : OptionRule) : Key × Setting → Prop
  | flag (valueless : option.takesValue = false) : option.Gives (option.key, .flag)
  | value {value : Text} (valued : option.takesValue = true) (accepted : option.Accepts value) :
      option.Gives (option.key, .ofValue value)

namespace Grammar

variable {grammar : Grammar}

/-- Whether a setting is given by one of the options. -/
def MayGive (grammar : Grammar) (setting : Key × Setting) : Prop :=
  ∃ option ∈ grammar.options, option.Gives setting

/-- Whether an item means nothing but an option that there is. -/
def Knows (grammar : Grammar) : Item → Prop
  | .option _ use => use.option ∈ grammar.options
  | .argument _ | .separator | .unknownOption _ => True

theorem knows_items {arguments : List Text} {items : List Item}
    (told : grammar.items arguments = .ok items) : ∀ item ∈ items, grammar.Knows item := by
  induction arguments generalizing items with
  | nil =>
      cases told
      simp
  | cons argument rest inductionHypothesis =>
      by_cases separates : argument = ['-', '-']
      · rw [Grammar.items, if_pos separates] at told
        cases told
        intro item itemMem
        rcases List.mem_cons.mp itemMem with rfl | behind
        · trivial
        · rcases List.mem_map.mp behind with ⟨text, _, rfl⟩
          trivial
      · rcases (items_cons_eq_ok_iff separates).mp told with
          ⟨item, others, toldFirst, toldRest, rfl⟩
        rw [List.forall_mem_cons]
        refine ⟨?_, inductionHypothesis toldRest⟩
        cases item with
        | option text use => exact mem_options_of_item toldFirst
        | argument | separator | unknownOption => trivial

/-- Whether a cluster consists of options that there are. -/
structure Covers (grammar : Grammar) (cluster : Cluster) : Prop where
  flags : ∀ option ∈ cluster.flags, option ∈ grammar.options ∧ option.takesValue = false
  valued : ∀ option joined, cluster.valued = some (option, joined) →
    option ∈ grammar.options ∧ option.takesValue = true

theorem covers_flag {option : OptionRule} (known : option ∈ grammar.options)
    (valueless : option.takesValue = false) : grammar.Covers ⟨[option], none⟩ where
  flags := by simp [known, valueless]
  valued := nofun

theorem covers_valued {flags : List OptionRule} {option : OptionRule} {joined : Option Text}
    (flagsKnown : ∀ flag ∈ flags, flag ∈ grammar.options ∧ flag.takesValue = false)
    (known : option ∈ grammar.options) (valued : option.takesValue = true) :
    grammar.Covers ⟨flags, some (option, joined)⟩ where
  flags := flagsKnown
  valued := by
    rintro _ _ ⟨⟩
    exact ⟨known, valued⟩

theorem covers_cluster {flag : OptionRule} {letters : Text} {cluster : Cluster}
    (known : flag ∈ grammar.options) (valueless : flag.takesValue = false)
    (told : grammar.cluster flag letters = .ok cluster) : grammar.Covers cluster := by
  induction letters generalizing flag cluster with
  | nil =>
      cases told
      exact covers_flag known valueless
  | cons letter rest inductionHypothesis =>
      rw [Grammar.cluster] at told
      split at told
      · contradiction
      · next option found =>
          have optionKnown := mem_options_of_option? found
          split at told
          · next valued =>
              cases told
              exact covers_valued (covers_flag known valueless).flags optionKnown valued
          · next optionValueless =>
              rcases Except.bind_eq_ok_iff.mp told with ⟨last, lastTold, result⟩
              cases result
              have others := inductionHypothesis optionKnown (by simpa using optionValueless)
                lastTold
              exact ⟨List.forall_mem_cons.mpr ⟨⟨known, valueless⟩, others.flags⟩, others.valued⟩

theorem covers_unfold {use : OptionUse} {cluster : Cluster} (known : use.option ∈ grammar.options)
    (told : grammar.unfold use = .ok cluster) : grammar.Covers cluster := by
  rw [unfold] at told
  split at told
  · next valued =>
      cases told
      exact covers_valued (by simp) known valued
  · next notValued =>
      have valueless : use.option.takesValue = false := by simpa using notValued
      split at told
      · cases told
        exact covers_flag known valueless
      · split at told
        · contradiction
        · exact covers_cluster known valueless told

theorem mayGive_of_raise {flags : List OptionRule} {raised : List (Key × Setting)}
    (known : ∀ option ∈ flags, option ∈ grammar.options ∧ option.takesValue = false)
    (told : flags.mapM grammar.raise = .ok raised) :
    ∀ setting ∈ raised, grammar.MayGive setting := by
  induction flags generalizing raised with
  | nil =>
      cases told
      simp
  | cons flag flags inductionHypothesis =>
      rw [List.forall_mem_cons] at known
      rcases Except.mapM_cons_eq_ok_iff.mp told with ⟨first, others, toldFirst, toldRest, rfl⟩
      rw [List.forall_mem_cons]
      refine ⟨⟨flag, known.1.1, ?_⟩, inductionHypothesis known.2 toldRest⟩
      rw [raise] at toldFirst
      split at toldFirst
      · contradiction
      · cases toldFirst
        exact .flag known.1.2

theorem mayGive_of_settle {option : OptionRule} {value : Text} {setting : Key × Setting}
    (known : option ∈ grammar.options) (valued : option.takesValue = true)
    (told : grammar.settle option value = .ok setting) : grammar.MayGive setting := by
  rcases settle_eq_ok_iff.mp told with ⟨accepted, rfl⟩
  exact ⟨option, known, .value valued accepted⟩

/-- A cluster and the value for its last option, before further items. -/
theorem mayGive_of_valued {flags : List OptionRule} {option : OptionRule} {value : Text}
    {behind : Except UsageError Parsed} {parsed : Parsed}
    (flagsKnown : ∀ flag ∈ flags, flag ∈ grammar.options ∧ flag.takesValue = false)
    (optionKnown : option ∈ grammar.options ∧ option.takesValue = true)
    (behindGiven : ∀ {rest}, behind = .ok rest → ∀ setting ∈ rest.settings, grammar.MayGive setting)
    (taken : (do
      let raised ← flags.mapM grammar.raise
      let setting ← grammar.settle option value
      let rest ← behind
      pure { rest with settings := raised ++ setting :: rest.settings }) = .ok parsed) :
    ∀ setting ∈ parsed.settings, grammar.MayGive setting := by
  rcases Except.bind_eq_ok_iff.mp taken with ⟨raised, toldRaised, taken⟩
  rcases Except.bind_eq_ok_iff.mp taken with ⟨setting, settled, taken⟩
  rcases Except.bind_eq_ok_iff.mp taken with ⟨rest, takenBehind, result⟩
  cases result
  rw [List.forall_mem_append, List.forall_mem_cons]
  exact ⟨mayGive_of_raise flagsKnown toldRaised,
    mayGive_of_settle optionKnown.1 optionKnown.2 settled, behindGiven takenBehind⟩

/-- What is taken from items has been given by the options among them. -/
theorem mayGive_of_take {phase : Phase} {items : List Item} {parsed : Parsed}
    (known : ∀ item ∈ items, grammar.Knows item)
    (taken : grammar.take phase items = .ok parsed) :
    ∀ setting ∈ parsed.settings, grammar.MayGive setting := by
  fun_induction take grammar phase items generalizing parsed with
  | case1 | case5 | case8 | case9 | case10 =>
      cases taken
      simp [Parsed.empty]
  | case2 | case3 | case4 | case6 | case7 | case14 | case15 =>
      rename_i inductionHypothesis
      rcases Except.bind_eq_ok_iff.mp taken with ⟨behind, takenBehind, result⟩
      have behindGiven := inductionHypothesis (List.forall_mem_cons.mp known).2 takenBehind
      cases result
      exact behindGiven
  | case11 | case12 | case13 =>
      rename_i inductionHypothesis
      exact inductionHypothesis (List.forall_mem_cons.mp known).2 taken
  | case16 =>
      rename_i rest phase inductionHypothesis hypothesisBehindValue
      rw [List.forall_mem_cons] at known
      rcases Except.bind_eq_ok_iff.mp taken with ⟨cluster, unfolded, taken⟩
      have covered := covers_unfold known.1 unfolded
      split at taken
      · rcases Except.bind_eq_ok_iff.mp taken with ⟨raised, toldRaised, taken⟩
        rcases Except.bind_eq_ok_iff.mp taken with ⟨behind, takenBehind, result⟩
        have behindGiven := inductionHypothesis known.2 takenBehind
        cases result
        exact List.forall_mem_append.mpr ⟨mayGive_of_raise covered.flags toldRaised, behindGiven⟩
      · next option value valued =>
        exact mayGive_of_valued covered.flags (covered.valued option _ valued)
          (inductionHypothesis known.2) taken
      · next option valued =>
        split at taken
        · exact mayGive_of_valued covered.flags (covered.valued option _ valued)
            (hypothesisBehindValue (List.forall_mem_cons.mp known.2).2) taken
        · contradiction

theorem mayGive_of_parse {arguments : List Text} {parsed : Parsed}
    (read : grammar.parse arguments = .ok parsed) :
    ∀ setting ∈ parsed.settings, grammar.MayGive setting := by
  rcases readFrom_eq_ok_iff.mp (parse_eq_ok_iff.mp read).1 with ⟨items, told, taken⟩
  exact mayGive_of_take (knows_items told) taken

end Grammar

section

variable {line : List Text} {arguments : Arguments} {key : Key} {setting : Setting}

theorem mayGive_of_setting? (parsed : Arguments.parse line = .ok arguments)
    (given : arguments.given.setting? key = some setting) :
    arguments.command.grammar.MayGive (key, setting) := by
  rcases exists_tail_of_parse parsed with ⟨tail, split⟩
  rw [split] at parsed
  rcases Arguments.parse_word_eq_ok_iff.mp parsed with ⟨parsedTail, read, _, same⟩
  have settingMem : (key, setting) ∈ arguments.given.settings := by
    rcases List.lookup_eq_some_iff.mp given with ⟨before, behind, place, _⟩
    rw [← List.mem_reverse, place]
    simp
  rw [same] at settingMem ⊢
  exact Grammar.mayGive_of_parse read _ settingMem

/-- An option with a value that has been given is blank or has a value that it accepts. -/
theorem isBlank_or_exists_value (parsed : Arguments.parse line = .ok arguments)
    (valued : ∀ option ∈ arguments.command.grammar.options,
      option.key = key → option.takesValue = true)
    (given : arguments.isRaised key = true) :
    arguments.isBlank key = true ∨
      ∃ option ∈ arguments.command.grammar.options, ∃ value, option.key = key ∧
        arguments.value? key = some value ∧ (option.choices = [] ∨ value ∈ option.choices) := by
  rcases Option.isSome_iff_exists.mp given with ⟨setting, found⟩
  rcases mayGive_of_setting? parsed found with ⟨option, optionMem, gives⟩
  cases gives with
  | flag valueless =>
      rw [valued option optionMem rfl] at valueless
      contradiction
  | @value value _ accepted =>
      by_cases blank : value = ['-', '-']
      · left
        rw [Arguments.isBlank, found, Setting.ofValue, if_pos blank]
        rfl
      · right
        refine ⟨option, optionMem, value, rfl, ?_, accepted.resolve_left blank⟩
        rw [Arguments.value?, found, Setting.ofValue, if_neg blank]

end

end Lexeme.Command
