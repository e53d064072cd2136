import Lexeme.Proofs.Command.Flags

/-!
# Values that look like options

A value that starts with a hyphen and holds a blank is an argument unless an option of the
command can be meant by it. So whether it is one depends on the command: `scan` has an option
of its own for the token file, and `show` has one for the source file.
-/

namespace Lexeme.Command

/-- Whether the option with a name may be meant by an argument. -/
def mayMean (name argument : Text) : Bool :=
  argument == name || (splitValue? argument).any (·.1 == name) ||
    if isLong argument then (((splitValue? argument).map Prod.fst).getD argument).isPrefixOf name
    else name == argument.take 2 || argument.isPrefixOf name

namespace Grammar

variable {grammar : Grammar} {argument : Text}

theorem option?_eq_none_iff {name : Text} :
    grammar.option? name = none ↔ ∀ entry ∈ grammar.named, (name == entry.1) = false := by
  simp only [option?, List.lookup_eq_none_iff, bne_iff_ne, beq_eq_false_iff_ne]

theorem joined_eq_none_iff :
    ((splitValue? argument).bind fun parts =>
        (grammar.option? parts.1).map fun option => OptionUse.mk option parts.1 (some parts.2)) =
        none ↔
      ∀ entry ∈ grammar.named, (splitValue? argument).any (·.1 == entry.1) = false := by
  cases splitValue? argument with
  | none => simp
  | some parts =>
      rw [Option.bind_some, Option.map_eq_none_iff, option?_eq_none_iff]
      rfl

theorem candidates_eq_nil_iff :
    grammar.candidates argument = [] ↔ ∀ entry ∈ grammar.named,
      (if isLong argument then
        (((splitValue? argument).map Prod.fst).getD argument).isPrefixOf entry.1
        else entry.1 == argument.take 2 || argument.isPrefixOf entry.1) = false := by
  simp only [candidates]
  split
  · simp only [List.filterMap_eq_nil_iff, ite_eq_right_iff, reduceCtorEq, imp_false,
      Bool.not_eq_true]
  · rw [List.filterMap_eq_nil_iff]
    grind

/-- A text of several characters that starts with a hyphen is an argument if no option may be
meant by it and it is a negative number or holds a blank. -/
theorem item_eq_argument_iff (hyphened : argument.head? = some '-') (longer : argument.length ≠ 1) :
    grammar.item argument = .ok (.argument argument) ↔
      (∀ entry ∈ grammar.named, mayMean entry.1 argument = false) ∧
        (isNegativeNumber argument ∨ argument.contains ' ') := by
  simp only [mayMean, Bool.or_eq_false_iff, and_assoc, forall_and, ← candidates_eq_nil_iff,
    ← joined_eq_none_iff, ← option?_eq_none_iff]
  simp only [item]
  rw [if_neg (by simpa using hyphened)]
  cases grammar.option? argument with
  | some option => simp
  | none =>
      simp only [if_neg longer, true_and]
      split
      · next joined => simp [joined]
      · next notJoined =>
          rw [notJoined]
          cases grammar.candidates argument with
          | nil =>
              dsimp only
              split
              · next told => simpa using told
              · next untold => simpa using untold
          | cons use others => cases others <;> simp

end Grammar

/-- The options that `scan` and `show` share, each with one of its names. -/
def sharedNames : List (Text × OptionRule) :=
  sharedOptions.flatMap fun option => option.names.map fun name => (name, option)

theorem named_scan : Name.scan.grammar.named = sharedNames ++
    [("-o".toList, .valued .output ["-o", "--output"]),
      ("--output".toList, .valued .output ["-o", "--output"])] :=
  rfl

theorem named_show : Name.show.grammar.named = sharedNames ++
    [("-s".toList, { OptionRule.valued .source ["-s", "--source"] with isRequired := true }),
      ("--source".toList,
        { OptionRule.valued .source ["-s", "--source"] with isRequired := true })] :=
  rfl

/-- Whether a value starts as the option of `show` does that `scan` does not have: with its
short name, or with a start of its long name in front of an equals sign. -/
def startsLikeSource (value : Text) : Bool :=
  "-s".toList.isPrefixOf value ||
    (splitValue? value).any fun parts =>
      "--s".toList.isPrefixOf parts.1 && parts.1.isPrefixOf "--source".toList

theorem prefix_of_splitValue? {value : Text} {parts : Text × Text}
    (split : splitValue? value = some parts) : parts.1 <+: value := by
  simp only [splitValue?] at split
  split at split
  · cases split
    exact List.takeWhile_prefix _
  · contradiction

/-- A long option is meant by a start of its name, and a value may be joined to that. -/
theorem mayMean_of_long {name argument : Text} (long : isLong argument = true) :
    mayMean name argument =
      (((splitValue? argument).map Prod.fst).getD argument).isPrefixOf name := by
  rw [Bool.eq_iff_iff]
  simp only [mayMean, long, if_true, Bool.or_eq_true]
  refine ⟨?_, Or.inr⟩
  rintro ((same | joined) | start)
  · rw [← beq_iff_eq.mp same]
    cases parted : splitValue? argument with
    | none => simp
    | some parts => simpa using prefix_of_splitValue? parted
  · cases parted : splitValue? argument with
    | none => simp [parted] at joined
    | some parts =>
        rw [parted, Option.any_some, beq_iff_eq] at joined
        simp [joined]
  · exact start

/-- With one hyphen, an option is meant only if its name starts alike. -/
theorem start_of_mayMean {name : Text} (twoLetters : 2 ≤ name.length) {letter : Char}
    {rest : Text} (short : letter ≠ '-') (may : mayMean name ('-' :: letter :: rest) = true) :
    ['-', letter] <+: name := by
  have noLong : isLong ('-' :: letter :: rest) = false := by simp [isLong, short]
  simp only [mayMean, noLong, Bool.false_eq_true, if_false, Bool.or_eq_true] at may
  rcases may with (same | joined) | (taken | start)
  · rw [← beq_iff_eq.mp same]
    exact ⟨rest, rfl⟩
  · cases parted : splitValue? ('-' :: letter :: rest) with
    | none => simp [parted] at joined
    | some parts =>
        rw [parted, Option.any_some, beq_iff_eq] at joined
        have nameStarts := prefix_of_splitValue? parted
        rw [joined] at nameStarts
        exact List.prefix_of_prefix_length_le ⟨rest, rfl⟩ nameStarts twoLetters
  · rw [beq_iff_eq.mp taken]
    exact ⟨[], rfl⟩
  · exact List.IsPrefix.trans ⟨rest, rfl⟩ (List.isPrefixOf_iff_prefix.mp start)

theorem isNegativeNumber_of_long (rest : Text) : isNegativeNumber ('-' :: '-' :: rest) = false := by
  have hyphen : DecimalDigit.isDecimalDigit '-' = false := by decide
  cases rest with
  | nil => rfl
  | cons c rest =>
      have body : (if ('-' :: c :: rest).getLast? = some '\n' then ('-' :: c :: rest).dropLast
          else '-' :: c :: rest) =
          '-' :: (if ('-' :: c :: rest).getLast? = some '\n' then (c :: rest).dropLast
            else c :: rest) := by
        split <;> rfl
      rw [isNegativeNumber, body]
      simp [hyphen]

theorem not_prefix_of_blank {name rest : Text} (noBlank : ' ' ∉ name)
    (blank : isNegativeNumber ('-' :: '-' :: rest) = true ∨
      ('-' :: '-' :: rest).contains ' ' = true) :
    ('-' :: '-' :: rest).isPrefixOf name = false := by
  rw [isNegativeNumber_of_long] at blank
  have holdsBlank : ' ' ∈ '-' :: '-' :: rest := by simpa using blank
  rw [Bool.eq_false_iff]
  intro start
  exact noBlank ((List.isPrefixOf_iff_prefix.mp start).subset holdsBlank)

theorem splitValue?_of_long {rest : Text} {parts : Text × Text}
    (parted : splitValue? ('-' :: '-' :: rest) = some parts) :
    ∃ start, parts.1 = '-' :: '-' :: start := by
  simp only [splitValue?] at parted
  split at parted
  · cases parted
    exact ⟨rest.takeWhile (· ≠ '='), rfl⟩
  · contradiction

theorem prefix_of_startsLikeSource {value : Text} (starts : startsLikeSource value = true) :
    ['-', 's'] <+: value ∨ ['-', '-', 's'] <+: value := by
  rw [startsLikeSource, Bool.or_eq_true] at starts
  rcases starts with short | joined
  · exact Or.inl (List.isPrefixOf_iff_prefix.mp short)
  · cases parted : splitValue? value with
    | none => simp [parted] at joined
    | some parts =>
        rw [parted, Option.any_some, Bool.and_eq_true] at joined
        have start := List.isPrefixOf_iff_prefix.mp joined.1
        exact Or.inr (start.trans (prefix_of_splitValue? parted))

/-- A value that may mean an option of `show` but none of `scan` starts like it. -/
theorem startsLikeSource_iff {value : Text} (hyphened : value.head? = some '-')
    (longer : value.length ≠ 1) (notConfig : mayMean "--config".toList value = false)
    (blank : isNegativeNumber value = true ∨ value.contains ' ' = true) :
    startsLikeSource value = true ↔
      mayMean "-s".toList value = true ∨ mayMean "--source".toList value = true := by
  match value with
  | [] => simp at hyphened
  | [_] => exact absurd rfl longer
  | first :: letter :: rest =>
      obtain rfl : first = '-' := by simpa using hyphened
      by_cases long : letter = '-'
      · subst long
        rw [mayMean_of_long rfl] at notConfig
        rw [mayMean_of_long rfl, mayMean_of_long rfl, startsLikeSource]
        cases parted : splitValue? ('-' :: '-' :: rest) with
        | none =>
            simp only [Option.map_none, Option.getD_none]
            rw [not_prefix_of_blank (by decide) blank, not_prefix_of_blank (by decide) blank]
            simp [List.isPrefixOf]
        | some parts =>
            rcases splitValue?_of_long parted with ⟨start, starts⟩
            rw [parted, Option.map_some, Option.getD_some, starts] at notConfig
            simp only [Option.map_some, Option.getD_some, Option.any_some, starts]
            cases start with
            | nil => simp [List.isPrefixOf] at notConfig
            | cons c start =>
                simp [List.isPrefixOf]
                grind
      · constructor
        · intro starts
          rcases prefix_of_startsLikeSource starts with ⟨tail, same⟩ | ⟨tail, same⟩
          · cases same
            simp [mayMean, isLong]
          · cases same
            exact absurd rfl long
        · rintro (may | may)
          · have same := start_of_mayMean (by decide) long may
            have letterSame : letter = 's' := by simpa using same
            simp [startsLikeSource, letterSame]
          · have same := start_of_mayMean (by decide) long may
            exact absurd (by simpa using same) long

/-- A value that `scan` takes for an argument is one for `show`, too, unless it starts like
the option that only `show` has. -/
theorem item_show_eq_argument_iff {value : Text}
    (told : Name.scan.grammar.item value = .ok (.argument value)) :
    Name.show.grammar.item value = .ok (.argument value) ↔ startsLikeSource value = false := by
  by_cases hyphened : value.head? = some '-'
  · by_cases single : value.length = 1
    · obtain rfl : value = ['-'] := by
        match value with
        | [_] => simpa using hyphened
      exact iff_of_true rfl (by decide)
    · rw [Grammar.item_eq_argument_iff hyphened single, named_scan, List.forall_mem_append] at told
      rcases told with ⟨⟨shared, _⟩, blank⟩
      have notConfig : mayMean "--config".toList value = false :=
        shared _ (List.mem_of_getElem? (show sharedNames[2]? = some _ from rfl))
      rw [Grammar.item_eq_argument_iff hyphened single, named_show, List.forall_mem_append,
        Bool.eq_false_iff, ne_eq, startsLikeSource_iff hyphened single notConfig blank]
      simp only [List.forall_mem_cons, List.not_mem_nil]
      grind
  · refine iff_of_true (Grammar.item_of_plain hyphened) ?_
    rw [Bool.eq_false_iff]
    intro starts
    rcases prefix_of_startsLikeSource starts with ⟨rest, rfl⟩ | ⟨rest, rfl⟩ <;>
      exact hyphened rfl

/-- Whether the value of a choice starts like the option that only `show` has. -/
def Flag.IsMistakable : Flag → Prop
  | .apart _ value => startsLikeSource value = true
  | .noText | .joined .. => False

theorem Flag.isAccepted_show_iff {flag : Flag} (accepted : flag.IsAccepted Name.scan.grammar) :
    flag.IsAccepted Name.show.grammar ↔ ¬flag.IsMistakable := by
  cases flag with
  | noText => exact iff_of_true trivial not_false
  | joined preference value => exact iff_of_true accepted not_false
  | apart preference value =>
      rcases accepted with ⟨⟨present, told⟩, allowed⟩
      rw [IsMistakable, Bool.not_eq_true, ← item_show_eq_argument_iff told, IsAccepted]
      exact ⟨fun shown => shown.1.2, fun shown => ⟨⟨present, shown⟩, allowed⟩⟩

end Lexeme.Command
