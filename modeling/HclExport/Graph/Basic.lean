import HclExport.Resource.Kind
import HclExport.Resource.NameRegistry

/-!
# The graph of references

The registry of identities and references of one export: which resources there are,
under which unique names, and which refers to which. It only grows, until it is sealed.

## Main definitions

* `Ref`, `Resource`, `Edge` — an identity, a named resource, and a reference.
* `Graph`, `Graph.register`, `Graph.addEdge`, `Graph.addEdges` — the graph and its growth.
* `SealedGraph`, `Graph.close` — a graph that no longer grows.
* `Graph.find?`, `Graph.lookup`, `Graph.edgesFrom` — queries.
-/

namespace HclExport

/-- The identity of a resource. -/
structure Ref where
  kind : Kind
  id : String
  deriving DecidableEq

/-- The identity in one text. -/
def Ref.key (ref : Ref) : String :=
  ref.kind.type ++ ":" ++ ref.id

/-- A resource under a name; the name is empty while it has none. -/
structure Resource where
  ref : Ref
  name : String := ""
  deriving DecidableEq

/-- A reference from a resource to an identity, with the field that holds it and the
path at which it was found. -/
structure Edge where
  source : Resource
  target : Ref
  field : String
  location : String
  deriving DecidableEq

/-- Resources and references in the order in which they came, and the names in use. -/
structure Graph where
  resources : List Resource := []
  edges : List Edge := []
  names : NameRegistry := {}
  isSealed : Bool := false

namespace Graph

/-! ### Queries -/

/-- The registered resource of an identity. -/
def find? (g : Graph) (ref : Ref) : Option Resource :=
  g.resources.find? fun r => r.ref = ref

/-- Whether an identity is registered. -/
def has (g : Graph) (ref : Ref) : Bool :=
  (g.find? ref).isSome

/-- The name of a registered identity. -/
def lookup (g : Graph) (ref : Ref) : Except Fault String :=
  match g.find? ref with
  | some r => .ok r.name
  | none => .error (Fault.of .notRegistered
      ("resource not found: type=" ++ ref.kind.type ++ ", id=" ++ ref.id)
      [("resource_type", .str ref.kind.type), ("resource_id", .str ref.id)])

/-- The references of the resources with an id, of one kind or of any. -/
def edgesFrom (g : Graph) (id : String) (kind? : Option Kind) : List Edge :=
  g.edges.filter fun e =>
    e.source.ref.id = id && (match kind? with
      | none => true
      | some kind => e.source.ref.kind = kind)

/-- The registered resources of a kind. -/
def ofKind (g : Graph) (kind : Kind) : List Resource :=
  g.resources.filter fun r => r.ref.kind = kind

/-- How many resources of a kind there are. -/
def countOf (g : Graph) (kind : Kind) : Nat :=
  (g.ofKind kind).length

/-! ### Growth -/

/-- The fault of an operation on a sealed graph. -/
def sealedFault (operation : String) : Fault :=
  { Fault.of .sealed ("cannot " ++ operation ++ " on a sealed dependency graph") [] with
    context := [("operation", .str operation)] }

/-- Register an identity under a name, or under a variant of it if the name is in use. An
identity that is registered already keeps its name. -/
def register (g : Graph) (ref : Ref) (name : String) : Except Fault (String × Graph) :=
  if g.isSealed then .error (sealedFault "register")
  else match g.find? ref with
    | some r => .ok (r.name, g)
    | none =>
      let (unique, names) := g.names.request name
      .ok (unique, { g with resources := g.resources ++ [⟨ref, unique⟩], names := names })

/-- Record a reference. Its source has to be registered and brings its name along; its
target need not be. -/
def addEdge (g : Graph) (source target : Ref) (field location : String) :
    Except Fault (Edge × Graph) :=
  if g.isSealed then .error (sealedFault "add_edge")
  else match g.find? source with
    | none => .error (Fault.of .notRegistered
        ("edge source is not registered: " ++ source.key)
        [("resource_type", .str source.kind.type), ("resource_id", .str source.id)])
    | some r =>
      let edge : Edge := ⟨r, target, field, location⟩
      .ok (edge, { g with edges := g.edges ++ [edge] })

/-- Record references one by one up to the first that is refused. -/
def addEdges (g : Graph) : List Edge → Except Fault Unit × Graph
  | [] => (.ok (), g)
  | e :: rest =>
    match g.addEdge e.source.ref e.target e.field e.location with
    | .error fault => (.error fault, g)
    | .ok (_, grown) => addEdges grown rest

@[simp] theorem addEdges_nil (g : Graph) : g.addEdges [] = (.ok (), g) := rfl

end Graph

/-! ### Sealing -/

/-- A graph that no longer grows. -/
structure SealedGraph where
  graph : Graph
  isSealed : graph.isSealed = true

/-- Seal the graph. -/
def Graph.close (g : Graph) : SealedGraph :=
  ⟨{ g with isSealed := true }, rfl⟩

/-- The sealed view of a graph that is sealed. -/
def SealedGraph.ofGraph (g : Graph) : Except Fault SealedGraph :=
  if h : g.isSealed = true then .ok ⟨g, h⟩
  else .error (Fault.of .resolution "SealedGraph requires a sealed DependencyGraph" [])

end HclExport
