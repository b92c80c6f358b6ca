import HclExport.Proofs.Document.Path
import HclExport.Proofs.Graph.Reference

/-!
# Texts are found in document order

A path is followed layer by layer, and a layer without values ends it. What is found is what a
search finds that goes from each value to the end of the path before it turns to the next, in the
same order; so references stand in the order of the document.

## Main definitions

* `everyItemOf?` — the member whose items a segment asks for.
* `Json.search` — the texts at the end of some segments, one value after the other.

## Main results

* `extractTexts_eq_search` — both ways lead to the same texts.
* `parsePaths_documentOrder` — **references stand in the order of paths and documents.**
-/

namespace HclExport

/-! ### Segments as they are written -/

/-- The member whose items a segment asks for: what stands before the wildcard at its end. -/
def everyItemOf? (segment : String) : Option String :=
  match segment.toList.reverse with
  | ']' :: '*' :: '[' :: key => some (String.ofList key.reverse)
  | _ => none

theorem everyItemOf?_eq_some_iff {segment key : String} :
    everyItemOf? segment = some key ↔ segment = key ++ "[*]" := by
  have hwildcard : "[*]".toList = ['[', '*', ']'] := by decide
  constructor
  · intro h
    unfold everyItemOf? at h
    split at h
    next found hreverse =>
      have hchars := congrArg List.reverse hreverse
      rw [List.reverse_reverse] at hchars
      rw [← Option.some.inj h, ← String.toList_inj, hchars, String.toList_append,
        String.toList_ofList, hwildcard]
      simp
    next => cases h
  · rintro rfl
    unfold everyItemOf?
    simp [hwildcard]

theorem Segment.ofText_eq (segment : String) :
    ofText segment =
      match everyItemOf? segment with
      | some key => .items key
      | none => .member segment := by
  have hwildcard : "[*]".toList = wildcard := by decide
  cases hkey : everyItemOf? segment with
  | some key =>
    obtain rfl := everyItemOf?_eq_some_iff.1 hkey
    have hsuffix : wildcard.isSuffixOf (key.toList ++ wildcard) = true :=
      List.isSuffixOf_iff_suffix.2 (List.suffix_append _ _)
    simp [ofText, hwildcard, hsuffix]
  | none =>
    have hsuffix : ¬wildcard.isSuffixOf segment.toList = true := by
      intro h
      obtain ⟨key, hchars⟩ := List.isSuffixOf_iff_suffix.1 h
      have hsome : everyItemOf? segment = some (String.ofList key) := by
        refine everyItemOf?_eq_some_iff.2 (String.toList_inj.1 ?_)
        rw [String.toList_append, String.toList_ofList, hwildcard, hchars]
      rw [hkey] at hsome
      cases hsome
    simp [ofText, hsuffix]

/-! ### Depth first -/

/-- The texts at the end of some segments that are not empty. A segment enters the member of its
name unless that is `null`, and one with a wildcard goes through the items of the array that is the
member, each to the end of the path before the next. Anything else holds nothing. -/
def Json.search : List String → Json → List String
  | [], .str s => if s = "" then [] else [s]
  | [], _ => []
  | segment :: rest, .obj members =>
    match everyItemOf? segment with
    | some key =>
      match Members.get? members key with
      | some (.arr items) => items.flatMap (search rest)
      | _ => []
    | none =>
      match Members.get? members segment with
      | some .null => []
      | some value => search rest value
      | none => []
  | _ :: _, _ => []

theorem Json.search_eq_reach (segments : List String) (value : Json) :
    value.search segments =
      (Segment.reach (segments.map Segment.ofText) value).filterMap givenText? := by
  induction segments generalizing value with
  | nil =>
    cases value with
    | str s => by_cases h : s = "" <;> simp [search, Segment.reach, givenText?, h]
    | _ => rfl
  | cons segment rest ih =>
    rw [List.map_cons, Segment.reach, Segment.ofText_eq, List.filterMap_flatMap]
    cases value with
    | obj members =>
      have hrest : search rest = fun found =>
          (Segment.reach (rest.map Segment.ofText) found).filterMap givenText? := funext ih
      cases hkey : everyItemOf? segment with
      | some key =>
        cases hfound : Members.get? members key with
        | none => simp [search, hkey, hfound, Segment.enter, Members.get]
        | some found =>
          cases found <;> simp [search, hkey, hfound, Segment.enter, Members.get, hrest]
      | none =>
        cases hfound : Members.get? members segment with
        | none => simp [search, hkey, hfound, Segment.enter, Members.get]
        | some found =>
          cases found <;> simp [search, hkey, hfound, Segment.enter, Members.get, ih]
    | _ => cases everyItemOf? segment <;> rfl

/-- The texts at a path are those that the search finds, in its order. -/
theorem extractTexts_eq_search (document : Json) (path : String) :
    extractTexts document path = document.search (splitPath path) := by
  rw [extractTexts_eq, Json.search_eq_reach]

/-- The items of the first array come before the second array is entered. -/
example :
    let row (ids : List Json) : Json := .obj [("cells", .arr (ids.map fun id => .obj [("id", id)]))]
    let rows : List Json := [row [.str "c", .null, .str "a"], .bool true, row [.str "b"]]
    extractTexts (.obj [("rows", .arr rows)]) "rows[*].cells[*].id" = ["c", "a", "b"] := by decide

/-! ### References -/

/-- **References stand in the order of paths and documents.** The texts at a path are those that the
search finds, in its order. Some paths give one reference for each of these texts, path by path,
unless one of them is required and the search finds nothing at it; then, and only then, they
complain. The references of a document are those at the paths of its kind. -/
theorem parsePaths_documentOrder (document : Json) :
    (∀ path, extractTexts document path = document.search (splitPath path)) ∧
    ∀ (source : Resource) (paths : List ReferencePath),
      (∀ edges, parsePaths source document paths = .ok edges ↔
        (¬∃ path ∈ paths, path.isOptional = false ∧ document.search (splitPath path.path) = []) ∧
          edges = paths.flatMap fun path =>
            (document.search (splitPath path.path)).map fun id =>
              ⟨source, ⟨path.target, id⟩, path.field, path.path⟩) ∧
      ((∃ unmet, parsePaths source document paths = .error unmet) ↔
        ∃ path ∈ paths, path.isOptional = false ∧ document.search (splitPath path.path) = []) ∧
      parseReferences source document = parsePaths source document source.ref.kind.schema := by
  refine ⟨extractTexts_eq_search document, fun source paths => ?_⟩
  have hunmet : ∀ path : ReferencePath, path.isUnmetIn document = true ↔
      path.isOptional = false ∧ document.search (splitPath path.path) = [] := by
    intro path
    rw [ReferencePath.isUnmetIn, extractTexts_eq_search]
    simp
  have hedges :
      (paths.flatMap fun path => (extractTexts document path.path).map (path.edge source)) =
      paths.flatMap fun path => (document.search (splitPath path.path)).map fun id =>
        ⟨source, ⟨path.target, id⟩, path.field, path.path⟩ := by
    simp only [extractTexts_eq_search]
    rfl
  simp only [← hunmet, ← hedges]
  rw [parsePaths_eq]
  cases hfirst : paths.find? (ReferencePath.isUnmetIn document) with
  | some path =>
    have hexists : ∃ path ∈ paths, path.isUnmetIn document = true :=
      ⟨path, List.mem_of_find?_eq_some hfirst, List.find?_some hfirst⟩
    refine ⟨fun edges => ⟨fun h => ?_, fun h => absurd hexists h.1⟩,
      ⟨fun _ => hexists, fun _ => ⟨_, rfl⟩⟩, rfl⟩
    cases h
  | none =>
    have hnone : ¬∃ path ∈ paths, path.isUnmetIn document = true := by
      rintro ⟨path, hpath, hunmet⟩
      exact List.find?_eq_none.1 hfirst path hpath hunmet
    refine ⟨fun edges => ⟨fun h => ⟨hnone, (Except.ok.inj h).symm⟩, fun h => congrArg _ h.2.symm⟩,
      ⟨?_, fun h => absurd h hnone⟩, rfl⟩
    rintro ⟨unmet, h⟩
    cases h

end HclExport
