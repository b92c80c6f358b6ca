import HclExport.Document.Path
import HclExport.Graph.Basic
import HclExport.Resource.Schema

/-!
# References in documents

The references that a document holds, by the paths declared for its kind.

## Main definitions

* `UnmetPath` — a required path at which a document holds nothing.
* `parsePath`, `parseReferences` — the references at one path and at several.
-/

namespace HclExport

/-- A required path at which the document of a resource holds nothing. -/
structure UnmetPath where
  source : Ref
  path : String

/-- The message about an unmet path. -/
def UnmetPath.message (unmet : UnmetPath) : String :=
  "no values found at path " ++ unmet.path

/-- The fault of an unmet path. -/
def UnmetPath.fault (unmet : UnmetPath) : Fault :=
  Fault.of .requiredPath unmet.message
    [("resource_type", .str unmet.source.kind.type), ("resource_id", .str unmet.source.id),
     ("path", .str unmet.path)]

/-- The references at one declared path: one for every text found there. -/
def parsePath (source : Resource) (document : Json) (path : ReferencePath) :
    Except UnmetPath (List Edge) :=
  match extractTexts document path.path with
  | [] => if path.isOptional then .ok [] else .error ⟨source.ref, path.path⟩
  | ids => .ok (ids.map fun id => ⟨source, ⟨path.target, id⟩, path.field, path.path⟩)

/-- The references at several paths in turn, or the first required path without one. -/
def parsePaths (source : Resource) (document : Json) :
    List ReferencePath → Except UnmetPath (List Edge)
  | [] => .ok []
  | path :: rest => do
    let found ← parsePath source document path
    let more ← parsePaths source document rest
    return found ++ more

/-- The references of a document at the paths declared for its kind. -/
def parseReferences (source : Resource) (document : Json) : Except UnmetPath (List Edge) :=
  parsePaths source document source.ref.kind.schema

end HclExport
