/-!
# Options and arguments

How the words of a command line divide into options, with or without a value, and plain
arguments. A value stands behind an equality sign or in the next word, for a short spelling
also in the rest of the word; two dashes end the options.

## Main definitions

* `OptionRule` — the spellings of an option, and what it is for.
* `Words` — the words of a command line, divided.
* `readWords` — divide the words of a command line.
-/

namespace HclExport
namespace CommandLine

/-- An option: its name behind two dashes, a letter for short, the form of its value if it
takes one, and what it is for. -/
structure OptionRule where
  name : String
  letter : Option Char := none
  value : Option String := none
  help : String

/-- An option as it was found: a switch, or one with a value. -/
structure FoundOption where
  name : String
  value : Option String := none
  deriving DecidableEq

/-- Words divided into options and plain arguments, both in order. -/
structure Words where
  options : List FoundOption := []
  arguments : List String := []

namespace Words

/-- Put an option in front. -/
def addOption (option : FoundOption) (words : Words) : Words :=
  { words with options := option :: words.options }

/-- Put a plain argument in front. -/
def addArgument (argument : String) (words : Words) : Words :=
  { words with arguments := argument :: words.arguments }

/-- Whether an option was found. -/
def has (words : Words) (name : String) : Bool :=
  words.options.any fun option => option.name = name

/-- All values of an option, in order. -/
def values (words : Words) (name : String) : List String :=
  (words.options.filter fun option => option.name = name).filterMap FoundOption.value

/-- The value of an option; the last one counts. -/
def value? (words : Words) (name : String) : Option String :=
  (words.values name).getLast?

end Words

/-- What one word says about options. -/
inductive WordMeaning
  /-- These options, which are complete. -/
  | complete (options : List FoundOption)
  /-- These options, and one whose value is the next word. -/
  | awaiting (options : List FoundOption) (name : String)
  /-- Something that no rule allows. -/
  | wrong

/-- The meaning of letters behind a dash: switches, and at most one option with a value. -/
def readLetters (rules : List OptionRule) : List Char → WordMeaning
  | [] => .complete []
  | c :: rest =>
    match rules.find? fun rule => rule.letter = some c with
    | none => .wrong
    | some rule =>
      if rule.value.isSome then
        if rest.isEmpty then .awaiting [] rule.name
        else .complete [⟨rule.name, some (String.ofList rest)⟩]
      else
        match readLetters rules rest with
        | .complete more => .complete (⟨rule.name, none⟩ :: more)
        | .awaiting more name => .awaiting (⟨rule.name, none⟩ :: more) name
        | .wrong => .wrong

/-- The meaning of a word that starts with a dash. -/
def readWord (rules : List OptionRule) (word : String) : WordMeaning :=
  let cs := word.toList
  let spelling := String.ofList (cs.takeWhile (· != '='))
  match rules.find? fun rule => "--" ++ rule.name = spelling with
  | some rule =>
    match rule.value, cs.dropWhile (· != '=') with
    | none, [] => .complete [⟨rule.name, none⟩]
    | none, _ => .wrong
    | some _, [] => .awaiting [] rule.name
    | some _, _ :: value => .complete [⟨rule.name, some (String.ofList value)⟩]
  | none => if ['-', '-'].isPrefixOf cs then .wrong else readLetters rules (cs.drop 1)

/-- Whether a word is to be read as options: a dash with something behind it. -/
def isOptionWord (word : String) : Bool :=
  match word.toList with
  | '-' :: _ :: _ => true
  | _ => false

/-- Divide words into options and arguments, or nothing if a rule is broken. Unless options
may follow arguments (`mixed`), everything from the first argument on is an argument. -/
def readWords (rules : List OptionRule) (mixed : Bool) : List String → Option Words
  | [] => some {}
  | word :: rest =>
    if word = "--" then some { arguments := rest }
    else if isOptionWord word then
      match readWord rules word with
      | .wrong => none
      | .complete options =>
        (readWords rules mixed rest).map fun words => options.foldr Words.addOption words
      | .awaiting options name =>
        match rest with
        | [] => none
        | value :: more =>
          (readWords rules mixed more).map fun words =>
            options.foldr Words.addOption (words.addOption ⟨name, some value⟩)
    else if mixed then (readWords rules mixed rest).map (Words.addArgument word)
    else some { arguments := word :: rest }

end CommandLine
end HclExport
