import HclExport.CommandLine.FileTree
import HclExport.CommandLine.Help
import HclExport.Export.Run
import HclExport.Logging
import HclExport.Text.ControlSequence

/-!
# The program

The commands of the program, and what each of them writes, as a function of the words of the
command line, the process variables and the files.

## Main definitions

* `Outcome` — what a run writes and how it ends.
* `runProgram` — the run of a command line.
-/

namespace HclExport
namespace CommandLine

/-! ### Outcomes -/

/-- Why a run breaks off without a message. -/
inductive Breakdown
  /-- A failure that is not reported. -/
  | failure (failure : Failure)
  /-- A file that cannot be read or written. -/
  | file (error : FileError)

/-- What a run writes and how it ends. -/
structure Outcome where
  exitCode : Nat := 0
  out : String := ""
  err : String := ""
  /-- The files and folders at the end. -/
  tree : FileTree := {}
  breakdown : Option Breakdown := none

namespace Outcome

/-- The command line is not understood. -/
def misused (usage : String) (outcome : Outcome) : Outcome :=
  { outcome with exitCode := 2, err := "Usage: " ++ usage ++ "\n" }

/-- Print a text, without the control sequences in it. -/
def print (text : String) (outcome : Outcome) : Outcome :=
  { outcome with out := outcome.out ++ withoutControls text }

/-- The run ends with a message. -/
def failed (message why : String) (outcome : Outcome) : Outcome :=
  { outcome with
    exitCode := 1
    err := withoutControls ("❌ " ++ message ++ ": " ++ why ++ "\n") }

/-- The run breaks off. -/
def broken (breakdown : Breakdown) (outcome : Outcome) : Outcome :=
  { outcome with exitCode := 1, breakdown := some breakdown }

/-- The end of an export that failed: faults and values out of place are reported. -/
def ofFailure : Failure → Outcome → Outcome
  | .fault fault => failed "Export failed" fault.text
  | .invalid message => failed "Invalid configuration" message
  | .undecodable e => failed "Invalid configuration" e.message
  | failure => broken (.failure failure)

/-- Write a text to a file. -/
def save (text path : String) (outcome : Outcome) : Outcome :=
  if outcome.breakdown.isSome then outcome
  else match outcome.tree.write (Path.ofText path) text.toUTF8.toList with
    | .ok grown => { outcome with tree := grown }
    | .error e => broken (.file e) outcome

/-- Write a text to a file, or to the standard output for a dash. -/
def write (text path : String) (outcome : Outcome) : Outcome :=
  if outcome.breakdown.isSome then outcome
  else if path = "-" then outcome.print text
  else outcome.save text path

/-- Take a step with the value of an option, if that is given. -/
def forOption (value? : Option String) (step : String → Outcome → Outcome)
    (outcome : Outcome) : Outcome :=
  match value? with
  | some value => step value outcome
  | none => outcome

end Outcome

/-! ### Commands -/

/-- The options of the program itself. -/
def programOptions : List OptionRule :=
  [{ name := "log-level", value := some "TEXT"
     help := "Logging level (DEBUG, INFO, WARNING, ERROR); defaults to LOG_LEVEL" },
   { name := "log-format", value := some "[console|json]"
     help := "Log renderer; defaults to LOG_FORMAT" }]

/-- The options of every command that runs an export. -/
def exportOptions : List OptionRule :=
  [{ name := "environment-id", value := some "TEXT"
     help := "PingOne environment ID (defaults to PINGONE_ENVIRONMENT_ID)" },
   { name := "region", value := some "[na|eu|ap|ca]"
     help := "PingOne region (defaults to PINGONE_REGION)" },
   { name := "skip-dependencies"
     help := "Write literal IDs instead of Terraform references" },
   { name := "continue-on-parse-error"
     help := "Report missing required references instead of aborting" },
   { name := "include-kind", value := some "TEXT"
     help := "Only export this kind (repeatable), e.g. flow" },
   { name := "exclude", value := some "TEXT"
     help := "Exclude one resource as <kind>:<id> (repeatable)" }]

/-- The further options of a conversion. -/
def conversionOptions : List OptionRule :=
  [{ name := "output", letter := some 'o', value := some "TEXT"
     help := "File for the generated HCL (default: stdout)" },
   { name := "generate-imports", help := "Generate Terraform import blocks" },
   { name := "imports-out", value := some "TEXT"
     help := "File for import blocks (implies --generate-imports)" },
   { name := "variables-out", value := some "TEXT"
     help := "File for extracted variable declarations" },
   { name := "use-variable-references"
     help := "Reference extracted input variables for every eligible value" },
   { name := "strict", help := "Fail on conversion errors" },
   { name := "report-out", value := some "TEXT", help := "File for the export report" }]

/-- The help of a conversion. -/
def convertHelp : CommandHelp where
  usage := "cli convert [OPTIONS] BATCH_FILE"
  summary := "Convert a batch of DaVinci resource documents to Terraform HCL."
  options := exportOptions ++ conversionOptions

/-- The help of the report on a graph. -/
def reportHelp : CommandHelp where
  usage := "cli report [OPTIONS] BATCH_FILE"
  summary := "Print the dependency validation report for a batch without writing HCL."
  options := exportOptions

/-- The help of the list of paths. -/
def schemasHelp : CommandHelp where
  usage := "cli schemas [OPTIONS]"
  summary := "List the reference paths searched in each resource kind."
  options := []

/-- The help of the program. -/
def programHelp : CommandHelp where
  usage := "cli [OPTIONS] COMMAND [ARGS]..."
  summary := "DaVinci Terraformer - convert DaVinci exports to Terraform."
  options := programOptions
  commands :=
    [("convert", convertHelp.summary),
     ("report", "Print the dependency validation report for a batch without..."),
     ("schemas", schemasHelp.summary)]

/-- The rules for the options of a command, help among them. -/
def CommandHelp.rules (help : CommandHelp) : List OptionRule :=
  help.options ++ [{ name := "help", help := "" }]

/-- The settings that words ask for, on top of the process variables; switches only turn on. -/
def optionsOf (env : ProcessVariables) (words : Words) : ExportOptions :=
  let given := ExportOptions.ofVariables env
  let kinds := words.values "include-kind"
  let exclusions := words.values "exclude"
  { environmentId := ((words.value? "environment-id").map Json.str).getD given.environmentId
    region := (words.value? "region").getD given.region
    skipsReferences := given.skipsReferences || words.has "skip-dependencies"
    writesImports :=
      given.writesImports || words.has "generate-imports" || words.has "imports-out"
    usesVariables := given.usesVariables || words.has "use-variable-references"
    toleratesUnmetPaths := given.toleratesUnmetPaths || words.has "continue-on-parse-error"
    mergesOwnership := given.mergesOwnership
    isStrict := given.isStrict || words.has "strict"
    includedKinds := if kinds.isEmpty then given.includedKinds else kinds
    excludedResources := if exclusions.isEmpty then given.excludedResources else exclusions }

/-- Whether a region that is asked for is known. -/
def regionIsKnown (words : Words) : Bool :=
  match words.value? "region" with
  | none => true
  | some name => (Region.parse? name).isSome

/-- The export that words ask for, of the batch in a file. -/
def exportOf (env : ProcessVariables) (words : Words) (path : Path)
    (octets : List UInt8) : Except Failure ExportResult := do
  let settings ← ExportSettings.check (optionsOf env words)
  let batch ← Batch.read path.text (some octets)
  runExport .standard settings batch

/-- What a conversion writes. -/
def writeConversion (words : Words) (result : ExportResult) (outcome : Outcome) : Outcome :=
  (outcome.write result.hcl ((words.value? "output").getD "-"))
    |>.forOption (words.value? "imports-out") (Outcome.write result.imports)
    |>.forOption (words.value? "variables-out") (Outcome.write result.inputs)
    |>.forOption (words.value? "report-out") (Outcome.save result.report.text)

/-- What the report on a graph writes. -/
def writeGraphReport (_ : Words) (result : ExportResult) (outcome : Outcome) : Outcome :=
  (outcome.print (result.graphReport.text ++ "\n")).print (result.missingSummary ++ "\n")

/-- The octets of a file. A path counts in full as it is written; one that is written as that
of a folder, with a slash or a dot at its end, leads to no file. -/
def readInput (tree : FileTree) (path : String) : Except FileError (List UInt8) := do
  let octets ← tree.read (Path.ofText path)
  if FileTree.pathLimit < path.utf8ByteSize then .error .nameTooLong
  else if ["", "."].contains ((path.splitOn "/").getLast?.getD "") then .error .belowFile
  else .ok octets

/-- Run a command that exports a batch and writes something of the result. The file is looked
up before further arguments are refused. -/
def runExportCommand (help : CommandHelp)
    (writeResult : Words → ExportResult → Outcome → Outcome) (env : ProcessVariables)
    (args : List String) (outcome : Outcome) : Outcome :=
  match readWords help.rules true args with
  | none => outcome.misused help.usage
  | some words =>
    if words.has "help" then outcome.print help.text
    else if !regionIsKnown words then outcome.misused help.usage
    else match words.arguments with
      | [] => outcome.misused help.usage
      | path :: more =>
        match readInput outcome.tree path, more with
        | .error .impossible, _ => outcome.broken (.file .impossible)
        | .ok octets, [] =>
          match exportOf env words (Path.ofText path) octets with
          | .ok result => writeResult words result outcome
          | .error failure => outcome.ofFailure failure
        | _, _ => outcome.misused help.usage

/-- Run the command that lists the paths. -/
def runSchemas (args : List String) (outcome : Outcome) : Outcome :=
  match readWords schemasHelp.rules true args with
  | none => outcome.misused schemasHelp.usage
  | some words =>
    if words.has "help" then outcome.print schemasHelp.text
    else if words.arguments.isEmpty then
      outcome.print (String.join (describeSchemas.map (· ++ "\n")))
    else outcome.misused schemasHelp.usage

/-- Whether a form of the log that is asked for is known. -/
def logFormatIsKnown (words : Words) : Bool :=
  match words.value? "log-format" with
  | none => true
  | some name => (LogFormat.parse name).toBool

/-- The run of a command, once the log is set up. -/
def runCommand (env : ProcessVariables) (name : String) :
    Option (List String → Outcome → Outcome) :=
  match name with
  | "convert" => some (runExportCommand convertHelp writeConversion env)
  | "report" => some (runExportCommand reportHelp writeGraphReport env)
  | "schemas" => some runSchemas
  | _ => none

/-- The end of a run whose command is not known. What stands in its place may be an option of
the program, behind two dashes: the words are read once more, and they may ask for help. -/
def runUnknown (args : List String) (outcome : Outcome) : Outcome :=
  match readWords programHelp.rules false args with
  | none => outcome.misused programHelp.usage
  | some words =>
    if words.has "help" then outcome.print programHelp.text
    else outcome.misused programHelp.usage

/-- The run of a command line. The options of the program stand before the command, which
has to be given; the log is set up before the words of the command are read. -/
def runProgram (env : ProcessVariables) (tree : FileTree) (args : List String) : Outcome :=
  let outcome : Outcome := { tree := tree }
  match readWords programHelp.rules false args with
  | none => outcome.misused programHelp.usage
  | some words =>
    if words.has "help" then outcome.print programHelp.text
    else if !logFormatIsKnown words then outcome.misused programHelp.usage
    else match words.arguments with
      | [] => outcome.misused programHelp.usage
      | name :: rest =>
        match runCommand env name with
        | none => runUnknown (name :: rest) outcome
        | some run =>
          match LogSettings.check env (words.value? "log-level")
              (words.value? "log-format") with
          | .ok _ => run rest outcome
          | .error (.invalid message) =>
            outcome.failed "Invalid logging configuration" message
          | .error failure => outcome.broken (.failure failure)

end CommandLine
end HclExport
