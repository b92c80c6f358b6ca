import HclExport.Graph.Reference
import Mathlib.Data.List.Nodup

/-!
# References that are found

What the paths declared for a kind find in a document: one reference for every text at one
of them, or the first required path without a text.

## Main definitions

* `ReferencePath.edge` — the reference at a path to an id.
* `ReferencePath.isUnmetIn` — a required path at which a document holds no text.

## Main results

* `parsePaths_eq` — what several paths find, and where they come to an end.
* `parseReferences_eq_ok` — all references of a document, path by path.
* `source_of_parseReferences` — whose required path is not met.
* `Kind.schema_field_injective` — a field of a kind belongs to one path.
-/

namespace HclExport

/-- The reference at a path to an id. -/
def ReferencePath.edge (source : Resource) (path : ReferencePath) (id : String) : Edge :=
  ⟨source, ⟨path.target, id⟩, path.field, path.path⟩

/-- Whether a path is required and a document holds no text at it. -/
def ReferencePath.isUnmetIn (document : Json) (path : ReferencePath) : Bool :=
  !path.isOptional && (extractTexts document path.path).isEmpty

section Paths

variable {source : Resource} {document : Json}

/-- The references at a path, or the path itself if it is required and holds no text. -/
theorem parsePath_eq (path : ReferencePath) :
    parsePath source document path =
      if path.isUnmetIn document then .error ⟨source.ref, path.path⟩
      else .ok ((extractTexts document path.path).map (path.edge source)) := by
  unfold parsePath ReferencePath.isUnmetIn
  cases hids : extractTexts document path.path with
  | nil => cases path.isOptional <;> rfl
  | cons id ids => simp [ReferencePath.edge]

/-- Paths are gone through up to the first that is required and holds no text; if there is none,
the references are those at each of them. -/
theorem parsePaths_eq (paths : List ReferencePath) :
    parsePaths source document paths =
      match paths.find? (ReferencePath.isUnmetIn document) with
      | some path => .error ⟨source.ref, path.path⟩
      | none => .ok (paths.flatMap fun path =>
          (extractTexts document path.path).map (path.edge source)) := by
  induction paths with
  | nil => rfl
  | cons path rest ih =>
    rw [parsePaths, parsePath_eq, ih]
    by_cases hunmet : path.isUnmetIn document = true
    · rw [if_pos hunmet, List.find?_cons_of_pos hunmet]
      rfl
    · rw [if_neg hunmet, List.find?_cons_of_neg hunmet]
      cases rest.find? (ReferencePath.isUnmetIn document) with
      | some first => rfl
      | none => rfl

theorem parsePaths_eq_ok {paths : List ReferencePath} {edges : List Edge}
    (h : parsePaths source document paths = .ok edges) :
    edges = paths.flatMap (fun path =>
        (extractTexts document path.path).map (path.edge source)) ∧
      ∀ path ∈ paths, path.isOptional = false → extractTexts document path.path ≠ [] := by
  rw [parsePaths_eq] at h
  split at h
  next => cases h
  next hmet =>
    refine ⟨(Except.ok.inj h).symm, ?_⟩
    intro path hpath hrequired hnone
    refine List.find?_eq_none.1 hmet path hpath ?_
    simp [ReferencePath.isUnmetIn, hrequired, hnone]

/-- All references of a document, path by path; every required path holds some. -/
theorem parseReferences_eq_ok {edges : List Edge}
    (h : parseReferences source document = .ok edges) :
    edges = source.ref.kind.schema.flatMap (fun path =>
        (extractTexts document path.path).map (path.edge source)) ∧
      ∀ path ∈ source.ref.kind.schema, path.isOptional = false →
        extractTexts document path.path ≠ [] :=
  parsePaths_eq_ok h

/-- Every reference of a document stands at a declared path. -/
theorem exists_path_of_mem_parseReferences {edges : List Edge}
    (h : parseReferences source document = .ok edges) {e : Edge} (he : e ∈ edges) :
    ∃ path ∈ source.ref.kind.schema, ∃ id ∈ extractTexts document path.path,
      e = path.edge source id := by
  obtain ⟨rfl, -⟩ := parseReferences_eq_ok h
  obtain ⟨path, hpath, he⟩ := List.mem_flatMap.1 he
  obtain ⟨id, hid, rfl⟩ := List.mem_map.1 he
  exact ⟨path, hpath, id, hid, rfl⟩

theorem source_mem_parseReferences {edges : List Edge}
    (h : parseReferences source document = .ok edges) : ∀ e ∈ edges, e.source = source := by
  intro e he
  obtain ⟨path, -, id, -, rfl⟩ := exists_path_of_mem_parseReferences h he
  rfl

end Paths

/-- A field of a kind belongs to one path. -/
theorem Kind.schema_field_injective {kind : Kind} {path other : ReferencePath}
    (h : path ∈ kind.schema) (hother : other ∈ kind.schema) (hfield : path.field = other.field) :
    path = other := by
  have hnodup : (kind.schema.map ReferencePath.field).Nodup := by cases kind <;> decide
  exact List.inj_on_of_nodup_map hnodup h hother hfield

end HclExport
