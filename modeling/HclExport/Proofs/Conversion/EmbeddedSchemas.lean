import HclExport.Proofs.Conversion.Usable
import HclExport.Proofs.Sorting
import Mathlib.Data.List.Nodup

/-!
# Schemas in nodes

A flow may take the entries of its input schema from schemas that are embedded in its nodes. These
are merged in the order of the nodes: of a property that several schemas define, the first
definition counts. So the entries do not depend on the order of the nodes as long as the schemas
agree on such properties.

## Main definitions

* `SchemaEntry.normal` — an entry with a data type that a configuration knows.
* `definedEntry`, `Members.definition?` — the entry of a property, and the one that counts under a
  name.
* `SchemasAgree` — schemas that define no property in different ways.
* `UsesEmbedded` — a flow takes its entries from embedded schemas.

## Main results

* `normalEntries_deriveEntries` — the entries that are derived, by name.
* `get?_mergeSchemas` — the first definition counts.
* `inputSchema_of_perm` — the input schemas of flows with the same nodes in another order.
-/

namespace HclExport

/-! ### Entries as they are written -/

/-- An entry with a data type that a configuration knows. -/
def SchemaEntry.normal (entry : SchemaEntry) : SchemaEntry :=
  { entry with dataType := normalizeDataType entry.dataType }

/-- The entries that a computation comes to, with data types that a configuration knows. -/
def normalEntries (result : Except Failure (List SchemaEntry)) : Option (List SchemaEntry) :=
  result.toOption.map (List.map SchemaEntry.normal)

theorem normalizeDataType_mem (type : String) : normalizeDataType type ∈ inputDataTypes := by
  unfold normalizeDataType
  dsimp only
  split
  next hknown => exact List.contains_iff_mem.1 hknown
  next => decide

theorem normalizeDataType_of_mem {type : String} (h : type ∈ inputDataTypes) :
    normalizeDataType type = type := by
  have hall : ∀ type ∈ inputDataTypes, normalizeDataType type = type := by decide +kernel
  exact hall type h

theorem SchemaEntry.items_normal (entry : SchemaEntry) : entry.normal.items = entry.items := by
  have hsame : normalizeDataType entry.normal.dataType = normalizeDataType entry.dataType :=
    normalizeDataType_of_mem (normalizeDataType_mem entry.dataType)
  unfold SchemaEntry.items
  rw [hsame]
  rfl

/-! ### Definitions of properties -/

/-- The entry of a property as it is written, apart from whether it is required. Only an object has
one. -/
def definedEntry (name : String) (property : Json) : Option SchemaEntry :=
  property.members?.map fun members => (SchemaEntry.ofProperty name members false).normal

/-- An entry that is required or is not. -/
def SchemaEntry.requiring (required : Bool) (entry : SchemaEntry) : SchemaEntry :=
  { entry with required := some required }

/-- The entry that counts under a name among properties. -/
def Members.definition? (properties : Members) (name : String) : Option SchemaEntry :=
  (properties.get? name).bind (definedEntry name)

/-- The entries of properties in the order of their names, given what is required. -/
def namedEntries (properties : Members) (required : List String) : List SchemaEntry :=
  (sortOn id (properties.map Prod.fst)).filterMap fun name =>
    (properties.definition? name).map (SchemaEntry.requiring (required.contains name))

theorem definedEntry_map_requiring (name : String) (property : Json) (required : Bool) :
    (definedEntry name property).map (SchemaEntry.requiring required) =
      property.members?.map fun members =>
        (SchemaEntry.ofProperty name members required).normal := by
  unfold definedEntry
  rw [Option.map_map]
  rfl

/-- Where no two members share a name, each is found under its own. -/
theorem Members.get?_of_mem {members : Members} (hkeys : (members.map Prod.fst).Nodup)
    {member : String × Json} (h : member ∈ members) : members.get? member.1 = some member.2 := by
  induction members with
  | nil => cases h
  | cons first rest ih =>
    rw [List.map_cons, List.nodup_cons] at hkeys
    rw [Members.get?_cons]
    rcases List.mem_cons.1 h with rfl | h
    · exact if_pos rfl
    · have hne : member.1 ≠ first.1 := fun heq => hkeys.1 (heq ▸ List.mem_map_of_mem h)
      rw [if_neg hne, ih hkeys.2 h]

theorem Members.get?_isSome_iff {members : Members} {name : String} :
    (members.get? name).isSome = true ↔ name ∈ members.map Prod.fst := by
  induction members with
  | nil => simp
  | cons member rest ih =>
    rw [Members.get?_cons, List.map_cons, List.mem_cons, ← ih]
    by_cases h : name = member.1
    · simp [h]
    · simp [h]

/-- The entries that are derived. -/
theorem normalEntries_deriveEntries {properties : Members}
    (hkeys : (properties.map Prod.fst).Nodup) {required : List Json} {names : List String}
    (hnames : requiredNames required = .ok names) :
    normalEntries (deriveEntries properties required) = some (namedEntries properties names) := by
  unfold normalEntries deriveEntries
  rw [hnames]
  refine congrArg some ?_
  unfold namedEntries
  rw [List.map_filterMap, sortOn_map, List.filterMap_map]
  refine List.filterMap_congr fun property hproperty => ?_
  simp only [Function.comp_apply, Option.map_map]
  rw [Members.definition?, Members.get?_of_mem hkeys (mem_sortOn.1 hproperty), Option.bind_some,
    definedEntry_map_requiring]
  rfl

/-! ### Definitions read back -/

theorem property_of_definition? {properties : Members} {name : String} {entry : SchemaEntry}
    (h : properties.definition? name = some entry) : entry.property = name := by
  obtain ⟨property, -, hdefined⟩ := Option.bind_eq_some_iff.1 h
  obtain ⟨members, -, rfl⟩ := Option.map_eq_some_iff.1 hdefined
  rfl

theorem definition?_map_requiring (properties : Members) (name : String) (required : Bool) :
    ((properties.definition? name).map (SchemaEntry.requiring required)).map
      (SchemaEntry.requiring false) = properties.definition? name := by
  cases h : properties.definition? name with
  | none => rfl
  | some entry =>
    obtain ⟨property, -, hdefined⟩ := Option.bind_eq_some_iff.1 h
    obtain ⟨members, -, rfl⟩ := Option.map_eq_some_iff.1 hdefined
    rfl

/-- The entry under a name, among those of some names. -/
theorem find?_filterMap_property {entryOf : String → Option SchemaEntry}
    (hentry : ∀ name entry, entryOf name = some entry → entry.property = name)
    (names : List String) (name : String) :
    ((names.filterMap entryOf).find? fun entry => entry.property = name) =
      if name ∈ names then entryOf name else none := by
  induction names with
  | nil => rfl
  | cons first rest ih =>
    cases hfirst : entryOf first with
    | none =>
      rw [List.filterMap_cons_none hfirst, ih]
      by_cases hname : name = first
      · simp [hname, hfirst]
      · simp [hname]
    | some entry =>
      rw [List.filterMap_cons_some hfirst, List.find?_cons, hentry first entry hfirst, ih]
      by_cases hname : name = first
      · simp [hname, hfirst]
      · simp [hname, Ne.symm hname]

/-- Entries show what is defined. -/
theorem definition?_eq_of_namedEntries {properties others : Members}
    {required required' : List String}
    (h : namedEntries properties required = namedEntries others required') (name : String) :
    properties.definition? name = others.definition? name := by
  have hread : ∀ (flow : Members) (names : List String),
      ((namedEntries flow names).find? fun entry => entry.property = name).map
        (SchemaEntry.requiring false) = flow.definition? name := by
    intro flow names
    have hproperty : ∀ name entry,
        (flow.definition? name).map (SchemaEntry.requiring (names.contains name)) = some entry →
          entry.property = name := by
      intro name entry hentry
      obtain ⟨defined, hdefined, rfl⟩ := Option.map_eq_some_iff.1 hentry
      have hname := property_of_definition? hdefined
      exact hname
    unfold namedEntries
    rw [find?_filterMap_property hproperty]
    split
    next => exact definition?_map_requiring _ _ _
    next hnone =>
      have hget : flow.get? name = none := by
        refine Option.not_isSome_iff_eq_none.1 fun hsome => hnone (mem_sortOn.2 ?_)
        exact Members.get?_isSome_iff.1 hsome
      rw [Members.definition?, hget]
      rfl
  rw [← hread properties required, h, hread]

/-- Entries depend on the definitions that count and on the names that are required. -/
theorem deriveEntries_congr {properties others : Members} {required required' : List Json}
    (hkeys : (properties.map Prod.fst).Nodup) (hkeys' : (others.map Prod.fst).Nodup)
    (hnames : (properties.map Prod.fst).Perm (others.map Prod.fst))
    (hdefinition : ∀ name, properties.definition? name = others.definition? name)
    (hrequired : required.Perm required') :
    normalEntries (deriveEntries properties required) =
      normalEntries (deriveEntries others required') := by
  have hsorted : sortOn id (properties.map Prod.fst) = sortOn id (others.map Prod.fst) :=
    sortOn_eq_of_perm hnames fun _ _ _ _ heq => heq
  have htexts : (required.filterMap Json.text?).Perm (required'.filterMap Json.text?) :=
    hrequired.filterMap _
  by_cases hall : required.all isListable = true
  · have hnames : requiredNames required = .ok (required.filterMap Json.text?) := if_pos hall
    have hnames' : requiredNames required' = .ok (required'.filterMap Json.text?) := by
      rw [hrequired.all_eq] at hall
      exact if_pos hall
    rw [normalEntries_deriveEntries hkeys hnames, normalEntries_deriveEntries hkeys' hnames']
    unfold namedEntries
    rw [hsorted]
    refine congrArg some (List.filterMap_congr fun name _ => ?_)
    rw [hdefinition, List.Perm.contains_eq htexts]
  · have hfails : requiredNames required = .error .mistyped := if_neg hall
    have hfails' : requiredNames required' = .error .mistyped := by
      rw [hrequired.all_eq] at hall
      exact if_neg hall
    unfold deriveEntries
    rw [hfails, hfails']
    rfl

/-! ### Merged schemas -/

/-- Keep a property unless one of its name was kept before. -/
def keepFirst (found : Members) (property : String × Json) : Members :=
  if (found.lookup property.1).isSome then found else found ++ [property]

theorem get?_keepFirst (found : Members) (property : String × Json) (name : String) :
    (keepFirst found property).get? name = (found.get? name).or (Members.get? [property] name) := by
  unfold keepFirst Members.get?
  split
  next hfound =>
    by_cases hname : name = property.1
    · subst hname
      obtain ⟨value, hvalue⟩ := Option.isSome_iff_exists.1 hfound
      rw [hvalue, Option.some_or]
    · have hnone : List.lookup name [property] = none := by
        simp [hname]
      rw [hnone, Option.or_none]
  next => exact List.lookup_append

theorem get?_foldl_keepFirst (found properties : Members) (name : String) :
    (properties.foldl keepFirst found).get? name =
      (found.get? name).or (properties.get? name) := by
  induction properties generalizing found with
  | nil => simp
  | cons property rest ih =>
    rw [List.foldl_cons, ih, get?_keepFirst, Option.or_assoc]
    exact congrArg _ List.lookup_append.symm

theorem nodup_foldl_keepFirst {found : Members} (h : (found.map Prod.fst).Nodup)
    (properties : Members) : ((properties.foldl keepFirst found).map Prod.fst).Nodup := by
  induction properties generalizing found with
  | nil => exact h
  | cons property rest ih =>
    refine ih ?_
    unfold keepFirst
    split
    next => exact h
    next hnew =>
      have hfresh : property.1 ∉ found.map Prod.fst := fun hmem =>
        hnew (Members.get?_isSome_iff.2 hmem)
      rw [List.map_append]
      exact List.nodup_append_comm.1 (List.nodup_cons.2 ⟨hfresh, h⟩)

/-- The definition of a property in the first of some schemas that has one. -/
def firstProperty? (schemas : List Members) (name : String) : Option Json :=
  schemas.findSome? fun schema => (schema.inner "properties").get? name

theorem get?_flatMap_properties (schemas : List Members) (name : String) :
    Members.get? (schemas.flatMap fun schema => schema.inner "properties") name =
      firstProperty? schemas name := by
  induction schemas with
  | nil => rfl
  | cons schema rest ih =>
    rw [List.flatMap_cons, firstProperty?, List.findSome?_cons, ← firstProperty?, ← ih]
    refine List.lookup_append.trans ?_
    show ((schema.inner "properties").get? name).or _ = _
    cases (schema.inner "properties").get? name <;> rfl

/-- The first definition counts. -/
theorem get?_mergeSchemas (schemas : List Members) (name : String) :
    (mergeSchemas schemas).1.get? name = firstProperty? schemas name := by
  rw [← get?_flatMap_properties]
  exact get?_foldl_keepFirst [] _ name

theorem nodup_mergeSchemas (schemas : List Members) :
    ((mergeSchemas schemas).1.map Prod.fst).Nodup := by
  have hnone : (([] : Members).map Prod.fst).Nodup := List.nodup_nil
  exact nodup_foldl_keepFirst hnone _

/-- Schemas that define no property in different ways. -/
def SchemasAgree (schemas : List Members) : Prop :=
  ∀ schema ∈ schemas, ∀ other ∈ schemas, ∀ name property property',
    (schema.inner "properties").get? name = some property →
    (other.inner "properties").get? name = some property' →
    definedEntry name property = definedEntry name property'

section Perm

variable {schemas others : List Members}

theorem firstProperty?_isSome_of_perm (hperm : schemas.Perm others) (name : String) :
    (firstProperty? schemas name).isSome = (firstProperty? others name).isSome := by
  unfold firstProperty?
  rw [Bool.eq_iff_iff, List.findSome?_isSome_iff, List.findSome?_isSome_iff]
  simp only [hperm.mem_iff]

theorem perm_names_mergeSchemas (hperm : schemas.Perm others) :
    ((mergeSchemas schemas).1.map Prod.fst).Perm ((mergeSchemas others).1.map Prod.fst) := by
  refine (List.perm_ext_iff_of_nodup (nodup_mergeSchemas _) (nodup_mergeSchemas _)).2 fun name => ?_
  rw [← Members.get?_isSome_iff, ← Members.get?_isSome_iff, get?_mergeSchemas, get?_mergeSchemas,
    firstProperty?_isSome_of_perm hperm]

/-- Where schemas agree, it does not matter which of them comes first. -/
theorem definition?_mergeSchemas_of_perm (hperm : schemas.Perm others)
    (hagree : SchemasAgree schemas) (name : String) :
    (mergeSchemas schemas).1.definition? name = (mergeSchemas others).1.definition? name := by
  have hsome := firstProperty?_isSome_of_perm hperm name
  unfold Members.definition?
  rw [get?_mergeSchemas, get?_mergeSchemas]
  cases hfirst : firstProperty? schemas name with
  | none =>
    rw [hfirst, Option.isSome_none, eq_comm, Option.isSome_eq_false_iff, Option.isNone_iff_eq_none]
      at hsome
    rw [hsome]
  | some property =>
    rw [hfirst, Option.isSome_some, eq_comm] at hsome
    obtain ⟨property', hother⟩ := Option.isSome_iff_exists.1 hsome
    obtain ⟨schema, hschema, hdefined⟩ := List.exists_of_findSome?_eq_some hfirst
    obtain ⟨schema', hschema', hdefined'⟩ := List.exists_of_findSome?_eq_some hother
    rw [hother]
    exact hagree schema hschema schema' (hperm.mem_iff.2 hschema') name property property' hdefined
      hdefined'

/-- The entries of schemas that agree do not depend on their order. -/
theorem deriveEntries_mergeSchemas_of_perm (hperm : schemas.Perm others)
    (hagree : SchemasAgree schemas) :
    normalEntries (deriveEntries (mergeSchemas schemas).1 (mergeSchemas schemas).2) =
      normalEntries (deriveEntries (mergeSchemas others).1 (mergeSchemas others).2) :=
  deriveEntries_congr (nodup_mergeSchemas _) (nodup_mergeSchemas _) (perm_names_mergeSchemas hperm)
    (definition?_mergeSchemas_of_perm hperm hagree) (hperm.flatMap_right _)

end Perm

/-! ### Flows -/

/-- The schemas that are embedded in the nodes of a flow. -/
def embeddedSchemas (document : Members) : List Members :=
  (nodeValues document).filterMap embeddedSchema?

/-- A flow takes the entries of its input schema from its nodes: it has none of its own, and a
compiled one without entries. -/
def UsesEmbedded (document : Members) : Prop :=
  (document.get "inputSchema").items?.getD [] = [] ∧
    ∃ compiled, (document.get "inputSchemaCompiled").members? = some compiled ∧
      ∀ property ∈ (compiledParameters compiled).inner "properties", property.2.members? = none

theorem toOption_eq_none_of_not_returns {α : Type} {result : Except Failure α}
    (h : ¬Returns result) : result.toOption = none := by
  cases result with
  | error failure => rfl
  | ok a => exact absurd (returns_ok a) h

/-- All embedded schemas can be read where the nodes come to entries. -/
theorem nodeEntries_of_returns {document : Members} (h : Returns (nodeEntries document)) :
    nodeEntries document =
      deriveEntries (mergeSchemas (embeddedSchemas document)).1
        (mergeSchemas (embeddedSchemas document)).2 := by
  refine nodeEntries_eq fun node hnode => ?_
  have husable := (returns_nodeEntries document).1 h node hnode
  exact nodeSchema_eq_ok husable.depth husable.digits

section Flows

variable {document other : Members}

theorem usableSchema_of_perm (hgiven : document.get "inputSchema" = other.get "inputSchema")
    (hcompiled : document.get "inputSchemaCompiled" = other.get "inputSchemaCompiled")
    (hnodes : (nodeValues document).Perm (nodeValues other)) :
    UsableSchema document ↔ UsableSchema other := by
  unfold UsableSchema
  rw [hgiven, hcompiled]
  simp only [hnodes.mem_iff]

theorem nodeEntries_of_perm (hnodes : (nodeValues document).Perm (nodeValues other))
    (hagree : SchemasAgree (embeddedSchemas document)) :
    normalEntries (nodeEntries document) = normalEntries (nodeEntries other) := by
  have hreturns : Returns (nodeEntries document) ↔ Returns (nodeEntries other) := by
    rw [returns_nodeEntries, returns_nodeEntries]
    simp only [hnodes.mem_iff]
  by_cases h : Returns (nodeEntries document)
  · rw [nodeEntries_of_returns h, nodeEntries_of_returns (hreturns.1 h)]
    exact deriveEntries_mergeSchemas_of_perm (hnodes.filterMap _) hagree
  · unfold normalEntries
    rw [toOption_eq_none_of_not_returns h,
      toOption_eq_none_of_not_returns fun hother => h (hreturns.2 hother)]

/-- The input schemas of flows with the same nodes in another order: they are the same, if the
schemas in the nodes agree or are not used. -/
theorem inputSchema_of_perm (hgiven : document.get "inputSchema" = other.get "inputSchema")
    (hcompiled : document.get "inputSchemaCompiled" = other.get "inputSchemaCompiled")
    (hnodes : (nodeValues document).Perm (nodeValues other))
    (hagree : UsesEmbedded document → SchemasAgree (embeddedSchemas document)) :
    normalEntries (inputSchema document) = normalEntries (inputSchema other) := by
  unfold inputSchema
  rw [← hgiven, ← hcompiled]
  cases hitems : (document.get "inputSchema").items?.getD [] with
  | cons item rest => rfl
  | nil =>
    cases hmembers : (document.get "inputSchemaCompiled").members? with
    | none => rfl
    | some compiled =>
      dsimp only
      cases hentries : compiledEntries compiled with
      | error failure => rfl
      | ok entries =>
        show normalEntries (if entries.isEmpty then _ else _) =
          normalEntries (if entries.isEmpty then _ else _)
        split
        next hempty =>
          refine nodeEntries_of_perm hnodes (hagree ⟨hitems, compiled, hmembers, ?_⟩)
          exact (deriveEntries_eq_nil_iff hentries).1 (List.isEmpty_iff.1 hempty)
        next => rfl

/-- The entries of a flow that takes them from embedded schemas. -/
theorem exists_normalEntries_inputSchema (h : UsesEmbedded document)
    (hreturns : Returns (inputSchema document)) :
    ∃ names, normalEntries (inputSchema document) =
      some (namedEntries (mergeSchemas (embeddedSchemas document)).1 names) := by
  obtain ⟨hitems, compiled, hmembers, hnone⟩ := h
  have hnodes : inputSchema document = nodeEntries document := by
    unfold inputSchema at hreturns ⊢
    rw [hitems, hmembers] at hreturns ⊢
    dsimp only at hreturns ⊢
    obtain ⟨entries, hentries⟩ := hreturns.of_bind
    obtain rfl := (deriveEntries_eq_nil_iff hentries).2 hnone
    rw [hentries]
    rfl
  rw [hnodes] at hreturns ⊢
  have hentries := nodeEntries_of_returns hreturns
  rw [hentries] at hreturns ⊢
  obtain ⟨names, hnames⟩ : Returns (requiredNames (mergeSchemas (embeddedSchemas document)).2) :=
    hreturns.of_bind
  exact ⟨names, normalEntries_deriveEntries (nodup_mergeSchemas _) hnames⟩

/-- Entries with other words for their data types are written the same. -/
theorem inputSchemaItems_of_normalEntries
    (h : normalEntries (inputSchema document) = normalEntries (inputSchema other)) :
    (inputSchemaItems document).toOption = (inputSchemaItems other).toOption := by
  have hitems : ∀ flow : Members, (inputSchemaItems flow).toOption =
      (normalEntries (inputSchema flow)).map fun entries =>
        if entries.isEmpty then []
        else [.blank, .block "input_schema =" "[" "]"
          (Hcl.Item.elements (entries.map SchemaEntry.items))] := by
    intro flow
    unfold inputSchemaItems normalEntries
    cases inputSchema flow with
    | error failure => rfl
    | ok entries =>
      show Except.toOption (if entries.isEmpty then _ else _) = some (if _ then _ else _)
      rw [List.isEmpty_map, List.map_map]
      have hsame : SchemaEntry.items ∘ SchemaEntry.normal = SchemaEntry.items :=
        funext SchemaEntry.items_normal
      rw [hsame]
      split <;> rfl
  rw [hitems, hitems, h]

end Flows

end HclExport
