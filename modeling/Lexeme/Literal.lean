import Lexeme.Packed.Record

/-!
# Literals and classification

Each group has a table of literals, the words that belong to its categories. A word is
classified by the first group, in a fixed order of the groups, whose table has it; a
word that no table has is unclassified. Comment marks get no special treatment.
-/

namespace Lexeme

namespace Group

def literals : Group → List (Text × Category)
  | keyword => [(['f', 'u', 'n'], .function), (['i', 'f'], .conditional)]
  | bracket => [(['('], .openParen), ([')'], .closeParen), (['<'], .openAngle),
      (['>'], .closeAngle), (['\x7b'], .openCurly), (['\x7d'], .closeCurly)]
  | operator => [(['+'], .plus), (['-'], .minus), (['*'], .star), (['/'], .slash)]
  | separator => [([':'], .typeSeparator), ([','], .comma)]
  | whitespace => [([' '], .space), (['\n'], .newline), (['\r', '\n'], .newline)]
  | quote => [(['"'], .doubleQuote), (['\''], .singleQuote), (['`'], .backtick)]

def category? (group : Group) (word : Text) : Option Category :=
  (group.literals.find? (·.1 == word)).map Prod.snd

/-- Classifies a word within a single group. -/
def probe (group : Group) (offset : Int) (word : Text) : Except Failure Token :=
  match group.category? word with
  | some category => .ok ⟨offset, category⟩
  | none => .error (Fault.notInGroup word group offset).raised

def probePacked (group : Group) (offset : Int) (word : Text) : Except Failure Bytes := do
  let token ← group.probe offset word
  token.pack

end Group

/-- The order in which groups are asked for a word. -/
def cascade : List Group :=
  [.keyword, .bracket, .operator, .separator, .whitespace, .quote]

/-- The category that the first of some groups to know a word gives it. -/
def categoryAmong (groups : List Group) (word : Text) : Category :=
  (groups.findSome? (·.category? word)).getD .unclassified

def categoryOf (word : Text) : Category :=
  categoryAmong cascade word

namespace Token

/-- The token of a word in a source. -/
def ofWord (offset : Int) (word : Text) : Token :=
  ⟨offset, categoryOf word⟩

/-- The token of a word that groups are asked for one after the other. A miss lets the next
group try, and any other failure is passed on; a word that all groups miss is unclassified. -/
def classifyAmong (offset : Int) (word : Text) : List Group → Except Failure Token
  | [] => .ok ⟨offset, .unclassified⟩
  | group :: groups =>
    match group.probe offset word with
    | .error (.fault (.notInGroup ..)) => classifyAmong offset word groups
    | answer => answer

/-- Classifies a word. That a group misses it has to be told, so this fails if the offset has
no written form, unless the first group knows the word. -/
def classify (offset : Int) (word : Text) : Except Failure Token :=
  classifyAmong offset word cascade

def classifyPacked (offset : Int) (word : Text) : Except Failure Bytes := do
  let token ← classify offset word
  token.pack

section

variable (classify : Int → Text → Except Failure Token)

/-- The tokens of words, each of them classified alone, whose offsets all lie above `previous`
and increase. -/
def classifyAfter (previous : Int) : List (Int × Text) → Except Failure (List Token)
  | [] => .ok []
  | (offset, word) :: words =>
    if offset ≤ previous then .error (Fault.outOfOrder previous offset).raised
    else do
      let token ← classify offset word
      let tokens ← classifyAfter offset words
      pure (token :: tokens)

def classifyEach : List (Int × Text) → Except Failure (List Token)
  | [] => .ok []
  | (offset, word) :: words => do
    let token ← classify offset word
    let tokens ← classifyAfter classify offset words
    pure (token :: tokens)

end

def classifyWords : List (Int × Text) → Except Failure (List Token) :=
  classifyEach classify

end Token

end Lexeme
