import HclExport.Conversion.Registry
import HclExport.Resource.Count

/-!
# Converting many documents

The documents of a kind are converted one after the other. A document that meets a fault is
skipped and reported, or ends the conversion when the context is strict; what it had left
behind until then stays.

## Main definitions

* `Problem` — a document that was skipped, with the reason.
* `KindOutput`, `KindOutput.hcl` — what the documents of one kind came to.
* `Emission`, `Tally` — what was left behind and counted so far.
* `Emission.convertKind`, `Emission.convertAll` — convert the documents of one kind and of
  every kind.
-/

namespace HclExport

/-- A document that was skipped: its resource type, what it is called, and the reason. -/
structure Problem where
  type : String
  resource : Json
  error : String

/-- What a skipped document is called: its name if that is given, and otherwise its id. -/
def Problem.resourceOf (document : Members) : Json :=
  if (document.get "name").isTruthy then document.get "name"
  else (document.get? "id").getD (.str "unknown")

/-- What the documents of one kind came to. -/
structure KindOutput where
  kind : Kind
  blocks : List Block := []
  imports : List ImportBlock := []
  problems : List Problem := []

namespace KindOutput

/-- The blocks in the order of their names. -/
def hcl (output : KindOutput) : String :=
  Hcl.sortBlocks (output.blocks.map Block.hcl)

/-- The values that the blocks take from outside. -/
def inputs (output : KindOutput) : List InputVariable :=
  output.blocks.flatMap Block.inputs

/-- Add a block and its imports. -/
def keep (block : Block) (imports : List ImportBlock) (output : KindOutput) : KindOutput :=
  { output with blocks := output.blocks ++ [block], imports := output.imports ++ imports }

/-- Add a document that was skipped. -/
def skip (problem : Problem) (output : KindOutput) : KindOutput :=
  { output with problems := output.problems ++ [problem] }

end KindOutput

/-- What was counted: the documents that were tried, kept and skipped, and the blocks of
each kind that was finished. -/
structure Tally where
  tried : Nat := 0
  kept : Nat := 0
  skipped : Nat := 0
  byKind : KindCounts := {}

/-- What conversions have left behind and counted so far. -/
structure Emission where
  ledger : Ledger := {}
  tally : Tally := {}

namespace Emission

/-- Count a document that was tried, with what it left behind. -/
def tried (ledger : Ledger) (emission : Emission) : Emission where
  ledger := ledger
  tally := { emission.tally with tried := emission.tally.tried + 1 }

/-- Count a block that is kept, and add its variables and imports. -/
def keep (block : Block) (imports : List ImportBlock) (emission : Emission) : Emission where
  ledger := emission.ledger.addKept block.inputs imports
  tally := { emission.tally with kept := emission.tally.kept + 1 }

/-- Count a document that was skipped. -/
def skip (emission : Emission) : Emission :=
  { emission with tally := { emission.tally with skipped := emission.tally.skipped + 1 } }

/-- Note the number of blocks of a kind. -/
def finish (output : KindOutput) (emission : Emission) : Emission :=
  let byKind := emission.tally.byKind.set output.kind output.blocks.length
  { emission with tally := { emission.tally with byKind := byKind } }

/-- The block of a document, with its imports if they are asked for. -/
def convertDocument (context : Context) (converter : Converter) (document : Members) :
    Conversion (Block × List ImportBlock) := do
  let block ← converter.convert context document
  if context.writesImports then
    return (block, ← orFail (converter.imports context document block.name))
  else return (block, [])

/-- Convert documents in turn, adding to what came of those before. -/
def convertDocuments (context : Context) (converter : Converter) (output : KindOutput)
    (emission : Emission) : List Members → Except Failure KindOutput × Emission
  | [] => (.ok output, emission.finish output)
  | document :: rest =>
    let (result, ledger) := (convertDocument context converter document).run emission.ledger
    let emission := emission.tried ledger
    match result with
    | .ok (block, imports) =>
      convertDocuments context converter (output.keep block imports)
        (emission.keep block imports) rest
    | .error (.fault fault) =>
      if context.isStrict then (.error (.fault fault), emission.skip)
      else
        let problem := ⟨output.kind.type, Problem.resourceOf document, fault.text⟩
        convertDocuments context converter (output.skip problem) emission.skip rest
    | .error failure => (.error failure, emission)

/-- The fault of a kind that nobody has claimed. -/
def unclaimedFault (kind : Kind) : Fault :=
  Fault.of .conversion ("No handler registered for " ++ kind.type)
    [("resource_type", .str kind.type)]

/-- Convert the documents of a kind. -/
def convertKind (registry : ConverterRegistry) (context : Context) (kind : Kind)
    (documents : List Members) (emission : Emission) : Except Failure KindOutput × Emission :=
  match registry.converter? kind with
  | .error failure => (.error failure, emission)
  | .ok none => (.error (.fault (unclaimedFault kind)), emission)
  | .ok (some converter) =>
    convertDocuments context converter { kind := kind } emission documents

/-- Convert the documents of several kinds in turn, up to the first that fails. -/
def convertKinds (registry : ConverterRegistry) (context : Context)
    (documents : Kind → List Members) (emission : Emission) :
    List Kind → Except Failure (List KindOutput) × Emission
  | [] => (.ok [], emission)
  | kind :: rest =>
    match emission.convertKind registry context kind (documents kind) with
    | (.error failure, emission) => (.error failure, emission)
    | (.ok output, emission) =>
      let (more, emission) := convertKinds registry context documents emission rest
      (more.map (output :: ·), emission)

/-- Convert the documents of every kind, those that others refer to first. -/
def convertAll (registry : ConverterRegistry) (context : Context)
    (documents : Kind → List Members) (emission : Emission) :
    Except Failure (List KindOutput) × Emission :=
  emission.convertKinds registry context documents Kind.all

end Emission

end HclExport
