import HclExport.Conversion.Document
import HclExport.Conversion.Draft

/-!
# Converters

A converter turns the documents of one kind into blocks.

## Main definitions

* `Block` — the text of a resource, with the values that it takes from outside.
* `Converter` — how the documents of one kind are identified, named and converted.
* `Converter.convert`, `Converter.imports` — the block and the imports of a document.
-/

namespace HclExport

/-- The text of a resource, with its identity and the values that it takes from outside. -/
structure Block where
  ref : Ref
  name : String
  hcl : String
  inputs : List InputVariable := []

/-- How the documents of one kind are identified, named and converted. -/
structure Converter where
  name : String
  kind : Kind
  types : List String
  /-- The name of a document before it is made unique. -/
  label : Members → Except Fault String
  /-- The id of the owner, from the document or from the recorded ownership. -/
  parentId : Context → Members → Except Fault (Option String)
  /-- The values that a document takes from outside, for a unique name. -/
  inputs : Members → String → List InputVariable
  /-- The block of a document, with its references still to be written. -/
  draft : Context → Members → Draft Block
  /-- Types of further resources that are imported along with the first. -/
  companions : List String := []

/-- A document is named by its own name, and without one by its id. -/
def labelOf (kind : Kind) (document : Members) : Except Fault String :=
  if document.text "name" = "" then (resourceId kind document).map sanitize
  else .ok (sanitize (document.text "name"))

namespace Converter

/-- The block of a document. -/
def convert (converter : Converter) (context : Context) (document : Members) :
    Conversion Block :=
  (converter.draft context document).write context

/-- The imports of a document under a name: the resource, and its companions by the same id. -/
def imports (converter : Converter) (context : Context) (document : Members) (name : String) :
    Except Fault (List ImportBlock) := do
  let id ← resourceId converter.kind document
  let parentId ← converter.parentId context document
  let imported ←
    importId (.str converter.kind.type) context.environmentId (.str id) (.ofText? parentId)
  return (converter.kind.type :: converter.companions).map fun type =>
    ⟨type, name, .str imported⟩

end Converter

end HclExport
