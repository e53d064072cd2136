import Lexeme.Proofs.Command.Settings

/-!
# Asking for a dump

Every command line that is accepted starts with the word for its command. The option that asks for
a dump can be put right behind that word: it is read as what stood there before with one more thing
given, and it settles what was settled before but for the dump.
-/

namespace Lexeme.Command

namespace Grammar

variable {grammar : Grammar} {phase : Phase} {argument text : Text} {use : OptionUse}
variable {items : List Item} {parsed : Parsed}

theorem mem_options_of_mem_named {name : Text} {option : OptionRule}
    (named : (name, option) ∈ grammar.named) : option ∈ grammar.options := by
  simp only [Grammar.named, List.mem_flatMap, List.mem_map, Prod.mk.injEq] at named
  rcases named with ⟨_, optionMem, _, _, _, rfl⟩
  exact optionMem

theorem mem_options_of_option? {name : Text} {option : OptionRule}
    (found : grammar.option? name = some option) : option ∈ grammar.options := by
  rw [option?, List.lookup_eq_some_iff] at found
  rcases found with ⟨before, after, split, _⟩
  have named : (name, option) ∈ grammar.named := by
    rw [split]
    simp
  exact mem_options_of_mem_named named

theorem mem_options_of_mem_candidates (candidate : use ∈ grammar.candidates argument) :
    use.option ∈ grammar.options := by
  simp only [candidates] at candidate
  split at candidate
  all_goals
    rcases List.mem_filterMap.mp candidate with ⟨entry, entryMem, meant⟩
    have optionMem := mem_options_of_mem_named entryMem
    grind

/-- Only an option of the grammar is taken for an option. -/
theorem mem_options_of_item (told : grammar.item argument = .ok (.option text use)) :
    use.option ∈ grammar.options := by
  simp only [item] at told
  split at told
  · cases told
  split at told
  · next found =>
      cases told
      exact mem_options_of_option? found
  split at told
  · cases told
  split at told
  · next joined =>
      cases told
      rcases Option.bind_eq_some_iff.mp joined with ⟨parts, _, named⟩
      rcases Option.map_eq_some_iff.mp named with ⟨option, found, rfl⟩
      exact mem_options_of_option? found
  split at told
  · next single =>
      cases told
      have candidate : use ∈ grammar.candidates argument := by
        rw [single]
        exact List.mem_singleton_self _
      exact mem_options_of_mem_candidates candidate
  · split at told <;> cases told
  · contradiction

/-- The letters behind an option without a value do not come before it. -/
theorem flags_of_unfold (valueless : use.option.takesValue = false) {cluster : Cluster}
    (unfolded : grammar.unfold use = .ok cluster) :
    ∃ others, cluster.flags = use.option :: others := by
  simp only [unfold, valueless, Bool.false_eq_true, if_false] at unfolded
  split at unfolded
  · cases unfolded
    exact ⟨[], rfl⟩
  split at unfolded
  · contradiction
  · next letters _ _ =>
      cases letters with
      | nil =>
          cases unfolded
          exact ⟨[], rfl⟩
      | cons letter rest =>
          simp only [Grammar.cluster] at unfolded
          split at unfolded
          · contradiction
          split at unfolded
          · cases unfolded
            exact ⟨[], rfl⟩
          · rcases Except.bind_eq_ok_iff.mp unfolded with ⟨last, _, result⟩
            cases result
            exact ⟨last.flags, rfl⟩

/-- Whoever asks for help gets nothing else. -/
theorem take_help_ne_ok (valueless : use.option.takesValue = false)
    (help : use.option.key = .help) :
    grammar.take phase (.option text use :: items) ≠ .ok parsed := by
  intro taken
  rw [take] at taken
  rcases Except.bind_eq_ok_iff.mp taken with ⟨cluster, unfolded, taken⟩
  rcases flags_of_unfold valueless unfolded with ⟨others, flags⟩
  have raised : cluster.flags.mapM grammar.raise = .error ⟨grammar.program, .help⟩ := by
    rw [flags, List.mapM_cons, raise, if_pos help]
    rfl
  rw [raised] at taken
  split at taken
  · contradiction
  · contradiction
  · split at taken <;> contradiction

end Grammar

theorem Name.word_of_ofWord? {word : Text} {command : Name}
    (found : Name.ofWord? word = some command) : word = command.word.toList := by
  have same := List.find?_some found
  exact (beq_iff_eq.mp same).symm

/-- The program takes nothing but the word for a command in front of what it leaves to the
command. -/
theorem exists_tail_of_programGrammar_parse {line : List Text} {outer : Parsed} {command : Name}
    (read : programGrammar.parse line = .ok outer) (placed : outer.unrecognized = [])
    (found : Name.ofWord? (outer.positionals.headD []) = some command) :
    ∃ tail, line = command.word.toList :: tail := by
  have word := Name.word_of_ofWord? found
  have notEmpty : ([] : Text) ≠ command.word.toList := by cases command <;> decide
  have notSeparator : (['-', '-'] : Text) ≠ command.word.toList := by cases command <;> decide
  rcases Grammar.readFrom_eq_ok_iff.mp (Grammar.parse_eq_ok_iff.mp read).1 with
    ⟨items, told, taken⟩
  cases line with
  | nil =>
      cases told
      cases taken
      exact absurd word notEmpty
  | cons argument rest =>
      by_cases separates : argument = ['-', '-']
      · rw [Grammar.items, if_pos separates] at told
        cases told
        simp only [Grammar.take, programGrammar] at taken
        split at taken
        · cases taken
          exact absurd word notEmpty
        · cases taken
          exact absurd word notSeparator
      · rcases (Grammar.items_cons_eq_ok_iff separates).mp told with
          ⟨item, others, toldFirst, _, rfl⟩
        -- What starts with a hyphen cannot stand in front: help ends the program, and anything
        -- else is left over.
        cases item with
        | argument text =>
            obtain rfl := Grammar.eq_of_item_eq_argument toldFirst
            cases taken
            exact ⟨rest, by rw [← word]; rfl⟩
        | separator => exact absurd (Grammar.text_of_item toldFirst).symm separates
        | unknownOption text =>
            rcases Except.bind_eq_ok_iff.mp taken with ⟨parsed, _, result⟩
            cases result
            contradiction
        | option text use =>
            have help : use.option = helpOption :=
              List.mem_singleton.mp (Grammar.mem_options_of_item toldFirst)
            have valueless : use.option.takesValue = false := by rw [help]; rfl
            have asksHelp : use.option.key = .help := by rw [help]; rfl
            exact absurd taken (Grammar.take_help_ne_ok valueless asksHelp)

theorem exists_tail_of_parse {line : List Text} {arguments : Arguments}
    (parsed : Arguments.parse line = .ok arguments) :
    ∃ tail, line = arguments.command.word.toList :: tail := by
  rcases Except.bind_eq_ok_iff.mp parsed with ⟨outer, read, placed⟩
  simp only at placed
  split at placed
  · contradiction
  · next command found =>
      rcases Except.bind_eq_ok_iff.mp placed with ⟨given, _, result⟩
      split at result
      · next nothing =>
          cases result
          exact exists_tail_of_programGrammar_parse read (List.append_eq_nil_iff.mp nothing).1 found
      · contradiction

section

variable {command : Name} {tail : List Text} {given : Parsed}

theorem missing_withSettings_debug (given : Parsed) :
    command.grammar.missing (given.withSettings [(.debug, .flag)]) =
      command.grammar.missing given := by
  have otherwise : ∀ option ∈ command.grammar.options,
      option.isRequired = true → option.key ≠ .debug := by
    cases command <;> decide
  simp only [Grammar.missing]
  congr 2
  apply List.filter_congr
  intro option optionMem
  cases required : option.isRequired with
  | false => rfl
  | true =>
      rw [Parsed.setting?_withSettings_of_ne (otherwise option optionMem required)]

theorem parse_debugging_eq_ok_iff {parsed : Parsed} :
    command.grammar.parse ("--debug".toList :: tail) = .ok parsed ↔
      ∃ given, command.grammar.parse tail = .ok given ∧
        parsed = given.withSettings [(.debug, .flag)] := by
  have told : command.grammar.item "--debug".toList =
      .ok (.option "--debug".toList ⟨.flag .debug ["--debug"], "--debug".toList, none⟩) := by
    cases command <;> rfl
  simp only [Grammar.parse_eq_ok_iff]
  rw [Grammar.readFrom_flag rfl (by decide) (by decide) told]
  constructor
  · rintro ⟨⟨given, read, rfl⟩, complete⟩
    exact ⟨given, ⟨read, (missing_withSettings_debug given).symm.trans complete⟩, rfl⟩
  · rintro ⟨given, ⟨read, complete⟩, rfl⟩
    exact ⟨⟨given, read, rfl⟩, (missing_withSettings_debug given).trans complete⟩

end

/-- The same arguments, with a dump asked for. -/
def Arguments.debugging (arguments : Arguments) : Arguments :=
  { arguments with given := arguments.given.withSettings [(.debug, .flag)] }

def Options.debugging (options : Options) : Options :=
  { options with debug := true }

/-- An accepted command line stays one if a dump is asked for behind the word for the command. -/
theorem parse_debugging {line : List Text} {arguments : Arguments}
    (parsed : Arguments.parse line = .ok arguments) :
    ∃ tail, line = arguments.command.word.toList :: tail ∧
      Arguments.parse (arguments.command.word.toList :: "--debug".toList :: tail) =
        .ok arguments.debugging := by
  rcases exists_tail_of_parse parsed with ⟨tail, split⟩
  refine ⟨tail, split, ?_⟩
  rw [split] at parsed
  rcases Arguments.parse_word_eq_ok_iff.mp parsed with ⟨given, read, placed, same⟩
  rw [Arguments.parse_word_eq_ok_iff]
  refine ⟨_, parse_debugging_eq_ok_iff.mpr ⟨given, read, rfl⟩, placed, ?_⟩
  rw [same]
  rfl

section

variable {arguments : Arguments}

theorem setting?_debugging {key : Key} (other : key ≠ .debug) :
    arguments.debugging.given.setting? key = arguments.given.setting? key :=
  Parsed.setting?_withSettings_of_ne other

theorem value?_debugging {key : Key} (other : key ≠ .debug) :
    arguments.debugging.value? key = arguments.value? key :=
  value?_congr (setting?_debugging other)

theorem isRaised_debugging : arguments.debugging.isRaised .debug = true := by
  rw [Arguments.isRaised, Arguments.debugging, Parsed.setting?_withSettings_self]
  rfl

theorem merge_debugging (config : Toml.Table) :
    Options.merge arguments.debugging config =
      (Options.merge arguments config).map Options.debugging := by
  have noText : arguments.debugging.isRaised .noText = arguments.isRaised .noText := by
    rw [Arguments.isRaised, Arguments.isRaised, setting?_debugging (by decide)]
  simp only [Options.merge]
  rw [Options.settleEncoding_congr (setting?_debugging (by decide)),
    Options.settleFormat_congr (setting?_debugging (by decide)), value?_debugging (by decide),
    value?_debugging (by decide), isRaised_debugging, noText]
  cases Options.settleEncoding arguments config with
  | error problem => rfl
  | ok encoding => cases Options.settleFormat arguments config <;> rfl

/-- Asking for a dump settles nothing else in another way. -/
theorem resolve_debugging (directory : Directory) (arguments : Arguments) :
    Options.resolve directory arguments.debugging =
      (Options.resolve directory arguments).map Options.debugging := by
  have samePath : Options.configPathOf arguments.debugging = Options.configPathOf arguments := by
    simp only [Options.configPathOf]
    rw [value?_debugging (by decide), value?_debugging (by decide)]
    rfl
  rw [Options.resolve, Options.resolve, samePath]
  cases loadConfig directory (Options.configPathOf arguments) with
  | error problem => rfl
  | ok config => exact merge_debugging config

end

end Lexeme.Command
