import HclExport.Graph.Basic

/-!
# Ownership

Which resource owns which others, apart from the references in documents.

## Main definitions

* `OwnershipRecord`, `Ownership` — who owns whom, as it was recorded.
* `Ownership.add` — record, or merge into the record of the same owner.
* `Ownership.children`, `Ownership.childIds`, `Ownership.parent?` — queries.
-/

namespace HclExport

/-- A resource and the ids of resources of one kind that it owns. -/
structure OwnershipRecord where
  parent : Ref
  childKind : Kind
  childIds : List String
  deriving DecidableEq

/-- The records in order; with `merges` there is one record for an owner and a kind. -/
structure Ownership where
  merges : Bool := false
  records : List OwnershipRecord := []

/-- The ids known and those of a list that are new, each once. -/
def addNewIds (known ids : List String) : List String :=
  ids.foldl (fun found id => if found.contains id then found else found ++ [id]) known

namespace OwnershipRecord

/-- Whether a record is about an owner and a kind. -/
def isAbout (record : OwnershipRecord) (parent : Ref) (childKind : Kind) : Bool :=
  record.parent = parent && record.childKind = childKind

/-- The records with new ids merged into the first one about the owner and the kind, or
into a record of their own. -/
def merge (parent : Ref) (childKind : Kind) (ids : List String) :
    List OwnershipRecord → List OwnershipRecord
  | [] => [⟨parent, childKind, addNewIds [] ids⟩]
  | record :: rest =>
    if record.isAbout parent childKind then
      { record with childIds := addNewIds record.childIds ids } :: rest
    else record :: merge parent childKind ids rest

end OwnershipRecord

namespace Ownership

/-- Record that a resource owns others. -/
def add (o : Ownership) (parent : Ref) (childKind : Kind) (ids : List String) : Ownership :=
  if o.merges then { o with records := OwnershipRecord.merge parent childKind ids o.records }
  else { o with records := o.records ++ [⟨parent, childKind, ids⟩] }

/-- The records about an owner. -/
def children (o : Ownership) (parent : Ref) : List OwnershipRecord :=
  o.records.filter fun record => record.parent = parent

/-- The ids that an owner owns, of one kind or of any. -/
def childIds (o : Ownership) (parent : Ref) (childKind? : Option Kind) : List String :=
  (o.children parent).flatMap fun record =>
    match childKind? with
    | none => record.childIds
    | some kind => if record.childKind = kind then record.childIds else []

/-- The first record that lists a resource. -/
def parent? (o : Ownership) (child : Ref) : Option OwnershipRecord :=
  o.records.find? fun record =>
    record.childKind = child.kind && record.childIds.contains child.id

end Ownership

end HclExport
