import HclExport.CommandLine.Program

/-!
# The command line

Reads the files and the process variables that a run asks for, and writes what it says.
-/

namespace HclExport
namespace CommandLine

/-- The process variables that settings are read from. -/
def variableNames : List String :=
  ["LOG_LEVEL", "LOG_FORMAT", "PINGONE_ENVIRONMENT_ID", "PINGONE_REGION",
   "DAVINCI_SKIP_DEPENDENCIES", "DAVINCI_GENERATE_IMPORTS", "DAVINCI_USE_VARIABLE_REFERENCES",
   "DAVINCI_CONTINUE_ON_PARSE_ERROR", "DAVINCI_DEDUPLICATE_HIERARCHY", "DAVINCI_STRICT_MODE",
   "DAVINCI_INCLUDE_KINDS", "DAVINCI_EXCLUDED_RESOURCES"]

/-- The process variables that are set. -/
def readVariables : IO ProcessVariables := do
  let found ← variableNames.mapM fun name => do
    return (← IO.getEnv name).map fun value => (name, value)
  return found.filterMap id

/-- What stands behind a handle: what can be opened but not read is a folder. -/
def readEntry (handle : IO.FS.Handle) : IO FileEntry := do
  try return .file (← handle.readBinToEnd).toList
  catch _ => return .folder

/-- What stands at a place, if it can be opened. -/
def lookAt (place : Path) : IO (Option FileEntry) := do
  try return some (← readEntry (← IO.FS.Handle.mk place.text .read))
  catch _ => return none

/-- The paths that a word of a command line may name: the word itself, what stands behind an
equality sign in it, and what stands behind a letter for short. -/
def pathsOf (word : String) : List Path :=
  let cs := word.toList
  [cs, (cs.dropWhile (· != '=')).drop 1, cs.drop 2].map fun name =>
    .ofText (String.ofList name)

/-- The files and folders on the paths that the words of a command line may name. -/
def readTree (args : List String) : IO FileTree := do
  let places := args.flatMap fun arg => (pathsOf arg).flatMap Path.places
  let found ← places.mapM fun place => do
    return (← lookAt place).map fun entry => (place, entry)
  return { found := found.filterMap id }

/-- Make a file or a folder. -/
def make (made : Path × FileEntry) : IO Unit :=
  match made.2 with
  | .folder => IO.FS.createDirAll made.1.text
  | .file octets => IO.FS.writeBinFile made.1.text (ByteArray.mk octets.toArray)

/-- Run a command line, write what it says, and give its exit code. -/
def perform (args : List String) : IO UInt32 := do
  let outcome := runProgram (← readVariables) (← readTree args) args
  outcome.tree.made.reverse.forM make
  IO.print outcome.out
  IO.eprint outcome.err
  return outcome.exitCode.toUInt32

end CommandLine
end HclExport

/-- The program. -/
def main (args : List String) : IO UInt32 :=
  HclExport.CommandLine.perform args
