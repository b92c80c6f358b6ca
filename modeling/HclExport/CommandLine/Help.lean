import HclExport.CommandLine.Option
import HclExport.Text.Padding

/-!
# Help

What a command does and which options it takes, on lines of limited width.

## Main definitions

* `wrap` — words on lines of a least number.
* `CommandHelp`, `CommandHelp.text` — the help of a command.
-/

namespace HclExport
namespace CommandLine

/-- The greatest width of a line of help behind the two blanks that it starts with. -/
def helpWidth : Nat := 78

/-- Words on lines of at most `width` characters, each line as full as it can be; `line` is
the one that is being filled. A word that is longer has a line of its own. -/
def wrapFrom (width : Nat) (line : String) : List String → List String
  | [] => [line]
  | word :: rest =>
    let longer := line ++ " " ++ word
    if longer.length ≤ width then wrapFrom width longer rest
    else line :: wrapFrom width word rest

/-- A text on lines of at most `width` characters. -/
def wrap (width : Nat) (text : String) : List String :=
  match (text.splitOn " ").filter (· != "") with
  | [] => []
  | word :: rest => wrapFrom width word rest

/-- A command: how it is called, what it does, its options and its own commands. -/
structure CommandHelp where
  usage : String
  summary : String
  options : List OptionRule
  commands : List (String × String) := []

/-- An option as it is written in help. -/
def OptionRule.spelling (rule : OptionRule) : String :=
  let short := match rule.letter with
    | some c => String.ofList ['-', c, ',', ' ']
    | none => ""
  let value := match rule.value with
    | some form => " " ++ form
    | none => ""
  short ++ "--" ++ rule.name ++ value

/-- The greatest width of a first column that has its second column beside it. -/
def columnLimit : Nat := 30

/-- One row of a table: a second column beside the first if that is not too wide, and below
it otherwise. -/
def tableRow (first : Nat) (row : String × String) : List String :=
  let below := spaces (2 + first)
  match wrap (helpWidth - first) row.2 with
  | [] => ["  " ++ row.1]
  | line :: more =>
    let continued := more.map (below ++ ·)
    if row.1.length + 2 ≤ first then ("  " ++ padRight first row.1 ++ line) :: continued
    else ("  " ++ row.1) :: (below ++ line) :: continued

/-- A table of two columns. -/
def table (rows : List (String × String)) : List String :=
  let widest := rows.foldl (fun width row => max width row.1.length) 0
  rows.flatMap (tableRow (min widest columnLimit + 2))

/-- The help of a command. -/
def CommandHelp.text (help : CommandHelp) : String :=
  let options := help.options.map fun rule => (rule.spelling, rule.help)
  let commands :=
    if help.commands.isEmpty then [] else ["", "Commands:"] ++ table help.commands
  let lines := ["Usage: " ++ help.usage, ""] ++
    (wrap helpWidth help.summary).map ("  " ++ ·) ++ ["", "Options:"] ++
    table (options ++ [("--help", "Show this message and exit.")]) ++ commands
  "\n".intercalate lines ++ "\n"

end CommandLine
end HclExport
