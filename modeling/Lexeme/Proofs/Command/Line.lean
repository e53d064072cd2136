import Lexeme.Command.Arguments
import Lexeme.Proofs.Except

/-!
# Reading options and positional arguments

How a grammar reads a command line from its front: an option with its value, or a positional
argument, and then the rest. What is read is what was given, in order.
-/

namespace Lexeme.Command

/-- What a value of an option stands for. -/
def Setting.ofValue (value : Text) : Setting :=
  if value = ['-', '-'] then .blank else .value value

/-- Whether an option accepts a value. -/
def OptionRule.Accepts (option : OptionRule) (value : Text) : Prop :=
  value = ['-', '-'] ∨ option.choices = [] ∨ value ∈ option.choices

namespace Parsed

def withSettings (settings : List (Key × Setting)) (parsed : Parsed) : Parsed :=
  { parsed with settings := settings ++ parsed.settings }

def withPositional (text : Text) (parsed : Parsed) : Parsed :=
  { parsed with positionals := text :: parsed.positionals }

variable {parsed : Parsed} {key other : Key} {setting : Setting}

theorem setting?_withSettings_of_ne (different : other ≠ key) :
    (parsed.withSettings [(key, setting)]).setting? other = parsed.setting? other := by
  have notSame : (other == key) = false := by simpa using different
  simp [withSettings, setting?, List.lookup_append, List.lookup_cons, notSame]

/-- What was given for an option before counts more than what is put in front. -/
theorem setting?_withSettings_self :
    (parsed.withSettings [(key, setting)]).setting? key =
      some ((parsed.setting? key).getD setting) := by
  simp [withSettings, setting?, List.lookup_append, Option.or_some]

end Parsed

/-- How far the positional arguments have come behind an option. -/
def Phase.behindOption (phase : Phase) : Phase :=
  if phase = .before then .before else .after

theorem Phase.behindOption_of_started {phase : Phase} (started : phase ≠ .before) :
    phase.behindOption = .after := by
  rw [behindOption, if_neg started]

namespace Grammar

variable {grammar : Grammar} {phase : Phase} {argument : Text} {arguments tail : List Text}
variable {parsed : Parsed}

theorem settle_eq_ok_iff {option : OptionRule} {value : Text} {setting : Key × Setting} :
    grammar.settle option value = .ok setting ↔
      option.Accepts value ∧ setting = (option.key, .ofValue value) := by
  simp only [settle, OptionRule.Accepts, Setting.ofValue]
  by_cases blank : value = ['-', '-']
  · simp [blank, eq_comm]
  · by_cases allowed : option.choices = [] ∨ value ∈ option.choices
    · simp [blank, allowed, eq_comm]
    · simp [blank, allowed]

/-- What is read from arguments when the positional ones have come to a phase. -/
def readFrom (grammar : Grammar) (phase : Phase) (arguments : List Text) :
    Except UsageError Parsed :=
  grammar.items arguments >>= grammar.take phase

theorem readFrom_nil : grammar.readFrom phase [] = .ok .empty := by
  cases phase <;> rfl

theorem items_cons_eq_ok_iff {items : List Item} (notSeparator : argument ≠ ['-', '-']) :
    grammar.items (argument :: arguments) = .ok items ↔
      ∃ item others, grammar.item argument = .ok item ∧
        grammar.items arguments = .ok others ∧ items = item :: others := by
  rw [Grammar.items, if_neg notSeparator]
  simp only [Except.bind_eq_ok_iff, pure, Except.pure, Except.ok.injEq]
  constructor
  · rintro ⟨item, told, others, rest, rfl⟩
    exact ⟨item, others, told, rest, rfl⟩
  · rintro ⟨item, others, told, rest, rfl⟩
    exact ⟨item, told, others, rest, rfl⟩

theorem item_of_plain (plain : argument.head? ≠ some '-') :
    grammar.item argument = .ok (.argument argument) := by
  rw [item, if_pos plain]

theorem ne_separator_of_plain (plain : argument.head? ≠ some '-') : argument ≠ ['-', '-'] := by
  rintro rfl
  exact plain rfl

theorem ofValue_of_plain (plain : argument.head? ≠ some '-') :
    Setting.ofValue argument = .value argument := by
  rw [Setting.ofValue, if_neg (ne_separator_of_plain plain)]

/-- Only an argument itself is taken for an argument. -/
theorem eq_of_item_eq_argument {text : Text} (told : grammar.item argument = .ok (.argument text)) :
    text = argument := by
  simp only [item] at told
  grind

theorem readFrom_eq_ok_iff :
    grammar.readFrom phase arguments = .ok parsed ↔
      ∃ items, grammar.items arguments = .ok items ∧ grammar.take phase items = .ok parsed :=
  Except.bind_eq_ok_iff

theorem readFrom_cons_eq_ok_iff {item : Item} (notSeparator : argument ≠ ['-', '-'])
    (told : grammar.item argument = .ok item) :
    grammar.readFrom phase (argument :: arguments) = .ok parsed ↔
      ∃ items, grammar.items arguments = .ok items ∧
        grammar.take phase (item :: items) = .ok parsed := by
  simp only [readFrom_eq_ok_iff, items_cons_eq_ok_iff notSeparator, told, Except.ok.injEq]
  grind

/-- The positional argument of a grammar that takes one, with what is read behind it. -/
theorem readFrom_positional (single : grammar.arity = .one) (plain : argument.head? ≠ some '-') :
    grammar.readFrom .before (argument :: arguments) = .ok parsed ↔
      ∃ rest, grammar.readFrom .closing arguments = .ok rest ∧
        parsed = rest.withPositional argument := by
  have taken (items : List Item) : grammar.take .before (.argument argument :: items) =
      (grammar.take .closing items).map (Parsed.withPositional argument) := by
    rw [take.eq_2 _ _ _ single]
    cases grammar.take .closing items <;> rfl
  rw [readFrom_cons_eq_ok_iff (ne_separator_of_plain plain) (item_of_plain plain)]
  simp only [taken, Except.map_eq_ok_iff, readFrom_eq_ok_iff]
  grind

section

variable {option : OptionRule} {word value : Text} {items : List Item}

theorem unfold_valued (valued : option.takesValue = true) (joined : Option Text) :
    grammar.unfold ⟨option, word, joined⟩ = .ok ⟨[], some (option, joined)⟩ := by
  rw [unfold, if_pos valued]

theorem take_flag (valueless : option.takesValue = false) (harmless : option.key ≠ .help) :
    grammar.take phase (.option word ⟨option, word, none⟩ :: items) =
      (grammar.take phase.behindOption items).map
        (Parsed.withSettings [(option.key, .flag)]) := by
  have unfolded : grammar.unfold ⟨option, word, none⟩ = .ok ⟨[option], none⟩ := by
    simp [unfold, valueless]
  have raised : [option].mapM grammar.raise = .ok [(option.key, .flag)] := by
    simp [raise, harmless, bind, Except.bind, pure, Except.pure]
  rw [take, unfolded, ← Phase.behindOption]
  simp only [bind, Except.bind, raised]
  cases grammar.take phase.behindOption items <;> rfl

theorem take_joined (started : phase ≠ .before) (valued : option.takesValue = true) :
    grammar.take phase (.option argument ⟨option, word, some value⟩ :: items) =
      grammar.settle option value >>= fun setting =>
        (grammar.take .after items).map (Parsed.withSettings [setting]) := by
  rw [take, unfold_valued valued, if_neg started]
  simp only [List.mapM_nil, pure, Except.pure, bind, Except.bind]
  cases grammar.settle option value with
  | error problem => rfl
  | ok setting => cases grammar.take .after items <;> rfl

/-- It makes no difference whether a value is joined to its option. -/
theorem take_apart (valued : option.takesValue = true) :
    grammar.take phase (.option word ⟨option, word, none⟩ :: .argument value :: items) =
      grammar.take phase (.option word ⟨option, word, some value⟩ :: items) := by
  rw [take, take, unfold_valued valued, unfold_valued valued]
  rfl

theorem take_valueless {item : Item} (valued : option.takesValue = true)
    (otherwise : ∀ text, item ≠ .argument text) :
    grammar.take phase (.option word ⟨option, word, none⟩ :: item :: items) =
      .error ⟨grammar.program, .missingValue option⟩ := by
  rw [take, unfold_valued valued]
  cases item with
  | argument text => exact absurd rfl (otherwise text)
  | _ => rfl

theorem readFrom_flag (valueless : option.takesValue = false)
    (harmless : option.key ≠ .help) (notSeparator : word ≠ ['-', '-'])
    (told : grammar.item word = .ok (.option word ⟨option, word, none⟩)) :
    grammar.readFrom phase (word :: tail) = .ok parsed ↔
      ∃ rest, grammar.readFrom phase.behindOption tail = .ok rest ∧
        parsed = rest.withSettings [(option.key, .flag)] := by
  rw [readFrom_cons_eq_ok_iff notSeparator told]
  simp only [take_flag valueless harmless, Except.map_eq_ok_iff, readFrom_eq_ok_iff]
  grind

theorem readFrom_joined (started : phase ≠ .before) (valued : option.takesValue = true)
    (notSeparator : argument ≠ ['-', '-'])
    (told : grammar.item argument = .ok (.option argument ⟨option, word, some value⟩)) :
    grammar.readFrom phase (argument :: tail) = .ok parsed ↔
      option.Accepts value ∧ ∃ rest, grammar.readFrom .after tail = .ok rest ∧
        parsed = rest.withSettings [(option.key, .ofValue value)] := by
  rw [readFrom_cons_eq_ok_iff notSeparator told]
  simp only [take_joined started valued, Except.bind_eq_ok_iff, settle_eq_ok_iff,
    Except.map_eq_ok_iff, readFrom_eq_ok_iff]
  grind

/-- An option whose value is an argument of its own takes no option for its value. -/
theorem readFrom_apart (started : phase ≠ .before) (valued : option.takesValue = true)
    (notSeparator : word ≠ ['-', '-'])
    (told : grammar.item word = .ok (.option word ⟨option, word, none⟩)) :
    grammar.readFrom phase (word :: value :: tail) = .ok parsed ↔
      (value ≠ ['-', '-'] ∧ grammar.item value = .ok (.argument value)) ∧ option.Accepts value ∧
        ∃ rest, grammar.readFrom .after tail = .ok rest ∧
          parsed = rest.withSettings [(option.key, .ofValue value)] := by
  rw [readFrom_cons_eq_ok_iff notSeparator told]
  by_cases separates : value = ['-', '-']
  · constructor
    · rintro ⟨items, rest, taken⟩
      rw [separates, Grammar.items, if_pos rfl] at rest
      cases rest
      rw [take_valueless valued (by simp)] at taken
      contradiction
    · rintro ⟨⟨present, _⟩, _⟩
      exact absurd separates present
  · simp only [items_cons_eq_ok_iff separates]
    constructor
    · rintro ⟨_, ⟨item, others, toldValue, rest, rfl⟩, taken⟩
      cases item with
      | argument text =>
          obtain rfl := eq_of_item_eq_argument toldValue
          rw [take_apart valued, take_joined started valued] at taken
          rcases Except.bind_eq_ok_iff.mp taken with ⟨setting, settled, takenRest⟩
          rcases settle_eq_ok_iff.mp settled with ⟨accepted, rfl⟩
          rcases Except.map_eq_ok_iff.mp takenRest with ⟨parsedRest, restTaken, rfl⟩
          exact ⟨⟨separates, toldValue⟩, accepted, parsedRest,
            readFrom_eq_ok_iff.mpr ⟨others, rest, restTaken⟩, rfl⟩
      | _ =>
          rw [take_valueless valued (by simp)] at taken
          contradiction
    · rintro ⟨⟨_, toldValue⟩, accepted, parsedRest, restRead, rfl⟩
      rcases readFrom_eq_ok_iff.mp restRead with ⟨others, rest, restTaken⟩
      refine ⟨_, ⟨_, others, toldValue, rest, rfl⟩, ?_⟩
      rw [take_apart valued, take_joined started valued, Except.bind_eq_ok_iff]
      exact ⟨_, settle_eq_ok_iff.mpr ⟨accepted, rfl⟩,
        Except.map_eq_ok_iff.mpr ⟨parsedRest, restTaken, rfl⟩⟩

end

theorem parse_eq_ok_iff :
    grammar.parse arguments = .ok parsed ↔
      grammar.readFrom .before arguments = .ok parsed ∧ grammar.missing parsed = [] := by
  simp only [parse]
  simp only [readFrom_eq_ok_iff, Except.bind_eq_ok_iff]
  constructor
  · rintro ⟨items, told, result, taken, complete⟩
    split at complete
    · next nothing =>
        cases complete
        exact ⟨⟨items, told, taken⟩, nothing⟩
    · contradiction
  · rintro ⟨⟨items, told, taken⟩, nothing⟩
    refine ⟨items, told, parsed, taken, ?_⟩
    rw [nothing]
    rfl

theorem exists_item
    (unambiguous : argument.head? = some '-' → argument.length ≠ 1 →
      grammar.candidates argument = [] ∨ ∃ use, grammar.candidates argument = [use]) :
    ∃ item, grammar.item argument = .ok item := by
  unfold Grammar.item
  split
  · exact ⟨_, rfl⟩
  · next hyphened =>
      split
      · exact ⟨_, rfl⟩
      · split
        · exact ⟨_, rfl⟩
        · next longer =>
            dsimp only
            split
            · exact ⟨_, rfl⟩
            · rcases unambiguous (by simpa using hyphened) longer with none | ⟨use, single⟩
              · rw [none]
                dsimp only
                split <;> exact ⟨_, rfl⟩
              · rw [single]
                exact ⟨_, rfl⟩

theorem text_of_item {item : Item} (told : grammar.item argument = .ok item) :
    item.text = argument := by
  simp only [Grammar.item] at told
  grind [Item.text]

theorem map_text_of_items {items : List Item} (told : grammar.items arguments = .ok items) :
    items.map Item.text = arguments := by
  induction arguments generalizing items with
  | nil =>
      cases told
      rfl
  | cons argument arguments inductionHypothesis =>
      by_cases separates : argument = ['-', '-']
      · rw [Grammar.items, if_pos separates] at told
        cases told
        simp [Item.text, separates, Function.comp_def]
      · rcases (items_cons_eq_ok_iff separates).mp told with ⟨item, others, toldFirst, rest, rfl⟩
        rw [List.map_cons, text_of_item toldFirst, inductionHypothesis rest]

end Grammar

theorem programGrammar_candidates (letter : Char) (rest : Text) :
    programGrammar.candidates ('-' :: letter :: rest) = [] ∨
      ∃ use, programGrammar.candidates ('-' :: letter :: rest) = [use] := by
  have named : programGrammar.named =
      [(['-', 'h'], helpOption), (['-', '-', 'h', 'e', 'l', 'p'], helpOption)] := rfl
  simp only [Grammar.candidates]
  rw [named]
  by_cases long : letter = '-'
  · subst long
    have foreign : (((splitValue? ('-' :: '-' :: rest)).map Prod.fst).getD
        ('-' :: '-' :: rest)).isPrefixOf ['-', 'h'] = false := by
      simp only [splitValue?]
      split <;> simp [List.isPrefixOf]
    simp only [isLong, if_true, List.filterMap, foreign]
    grind
  · have short : isLong ('-' :: letter :: rest) = false := by simp [isLong, long]
    simp only [short, List.filterMap]
    simp [List.isPrefixOf, long]
    grind

theorem programGrammar_items (arguments : List Text) :
    ∃ items, programGrammar.items arguments = .ok items := by
  induction arguments with
  | nil => exact ⟨[], rfl⟩
  | cons argument arguments inductionHypothesis =>
      by_cases separates : argument = ['-', '-']
      · exact ⟨_, by rw [Grammar.items, if_pos separates]⟩
      · have unambiguous : ∃ item, programGrammar.item argument = .ok item := by
          apply Grammar.exists_item
          intro hyphened longer
          match argument with
          | [] => simp at hyphened
          | [_] => exact absurd rfl longer
          | first :: letter :: rest =>
              obtain rfl : first = '-' := by simpa using hyphened
              exact programGrammar_candidates letter rest
        rcases unambiguous with ⟨item, told⟩
        rcases inductionHypothesis with ⟨others, rest⟩
        exact ⟨item :: others,
          (Grammar.items_cons_eq_ok_iff separates).mpr ⟨item, others, told, rest, rfl⟩⟩

/-- The program leaves everything behind the word for a command to the command. -/
theorem programGrammar_parse {word : Text} (plain : word.head? ≠ some '-')
    (arguments : List Text) :
    programGrammar.parse (word :: arguments) =
      .ok { Parsed.empty with positionals := word :: arguments } := by
  rcases programGrammar_items arguments with ⟨items, told⟩
  refine Grammar.parse_eq_ok_iff.mpr ⟨?_, rfl⟩
  rw [Grammar.readFrom_cons_eq_ok_iff (Grammar.ne_separator_of_plain plain)
    (Grammar.item_of_plain plain)]
  refine ⟨items, told, ?_⟩
  rw [← Grammar.map_text_of_items told]
  rfl

theorem Arguments.parse_word_eq_ok_iff {command : Name} {arguments : List Text}
    {result : Arguments} :
    Arguments.parse (command.word.toList :: arguments) = .ok result ↔
      ∃ given, command.grammar.parse arguments = .ok given ∧ given.unrecognized = [] ∧
        result = ⟨command, given⟩ := by
  have plain : command.word.toList.head? ≠ some '-' := by cases command <;> decide
  have word : Name.ofWord? command.word.toList = some command := by cases command <;> rfl
  simp only [Arguments.parse]
  rw [programGrammar_parse plain, Except.bind_eq_ok_iff]
  simp only [Except.ok.injEq, exists_eq_left', List.headD_cons, word, List.drop_succ_cons,
    List.drop_zero, Except.bind_eq_ok_iff, Parsed.empty, List.nil_append]
  constructor
  · rintro ⟨given, read, placed⟩
    split at placed
    · next nothing =>
        cases placed
        exact ⟨given, read, nothing, rfl⟩
    · contradiction
  · rintro ⟨given, read, nothing, rfl⟩
    refine ⟨given, read, ?_⟩
    rw [nothing]
    rfl

end Lexeme.Command
