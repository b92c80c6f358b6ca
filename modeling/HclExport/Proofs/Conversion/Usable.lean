import HclExport.Proofs.Conversion.Requests

/-!
# What is used without a look

Most values of a document are looked at before they are used, and left out if they are not what
they should be. Flows and flow policies use a few without a look: numbers that are cut to
integers, lists that are gone through, names that are collected in a set, schemas that are read
from texts. Each part of a block comes to a result exactly if such values in it can be used.

## Main definitions

* `Returns` — a computation that comes to a result.
* `Json.IsFinite`, `Json.IsIterable` — values that can be cut to an integer, and gone through.
* `UsableSettings`, `UsableSchema`, `UsableTrigger`, `UsableDistributions` — what is used without
  a look can be used.

## Main results

* `returns_settingsItems`, `returns_diagramItems`, `returns_inputSchemaItems`,
  `returns_flowTrigger`, `returns_policyTrigger`, `returns_distributionItems` — when the parts
  of a block come to a result.
-/

namespace HclExport

/-- A computation that comes to a result. -/
def Returns {α : Type} (result : Except Failure α) : Prop :=
  ∃ a, result = .ok a

section Computations

variable {α β : Type}

@[simp] theorem returns_ok (a : α) : Returns (.ok a) :=
  ⟨a, rfl⟩

@[simp] theorem returns_pure (a : α) : Returns (pure a) :=
  ⟨a, rfl⟩

@[simp] theorem not_returns_error (failure : Failure) :
    ¬ Returns (.error failure : Except Failure α) := by
  rintro ⟨a, h⟩
  cases h

theorem returns_bind_iff {result : Except Failure α} {next : α → Except Failure β} {p : Prop}
    (h : ∀ a, result = .ok a → (Returns (next a) ↔ p)) :
    Returns (result >>= next) ↔ Returns result ∧ p := by
  cases result with
  | error failure =>
    exact iff_of_false (not_returns_error _) fun hboth => not_returns_error _ hboth.1
  | ok a => exact (h a rfl).trans (by simp)

/-- What comes behind does not fail. -/
theorem returns_bind {result : Except Failure α} {next : α → Except Failure β}
    (h : ∀ a, Returns (next a)) : Returns (result >>= next) ↔ Returns result := by
  rw [returns_bind_iff fun a _ => iff_true_intro (h a), and_true]

theorem returns_mapM {f : α → Except Failure β} (xs : List α) :
    Returns (xs.mapM f) ↔ ∀ x ∈ xs, Returns (f x) := by
  induction xs with
  | nil => simp
  | cons x xs ih =>
    rw [List.mapM_cons, List.forall_mem_cons, ← ih]
    exact returns_bind_iff fun y _ => returns_bind fun ys => returns_pure _

theorem mapM_eq_ok {f : α → Except Failure β} {g : α → β} {xs : List α}
    (h : ∀ x ∈ xs, f x = .ok (g x)) : xs.mapM f = .ok (xs.map g) := by
  induction xs with
  | nil => rfl
  | cons x xs ih =>
    rw [List.mapM_cons, h x List.mem_cons_self, ih fun y hy => h y (List.mem_cons_of_mem x hy)]
    rfl

theorem Returns.of_bind {result : Except Failure α} {next : α → Except Failure β}
    (h : Returns (result >>= next)) : Returns result := by
  cases result with
  | error failure => exact absurd h (not_returns_error _)
  | ok a => exact returns_ok a

end Computations

/-! ### Numbers and lists -/

/-- A number that can be cut to an integer. -/
def Number.IsFinite : Number → Prop
  | .int _ => True
  | .real (.finite _ _ _) => True
  | .real _ => False

/-- A value that is no number, or one that can be cut to an integer. -/
def Json.IsFinite : Json → Prop
  | .num n => n.IsFinite
  | _ => True

/-- A value that can be gone through one by one, or does not count as given. -/
def Json.IsIterable (value : Json) : Prop :=
  value.elements?.isSome = true ∨ value.isTruthy = false

theorem returns_integerText (n : Number) : Returns (integerText n) ↔ n.IsFinite := by
  cases n with
  | int i => simp [integerText, Number.IsFinite]
  | real x => cases x <;> simp [integerText, Number.IsFinite, Binary64.cut]

theorem returns_integerPair (document : Members) (key name : String) :
    Returns (integerPair document key name) ↔ (document.get key).IsFinite := by
  unfold integerPair Members.number?
  cases document.get key with
  | num n => exact (returns_bind fun text => returns_pure _).trans (returns_integerText n)
  | _ => exact iff_of_true (returns_ok _) trivial

theorem returns_listedObjects (value : Json) :
    Returns (listedObjects value) ↔ value.IsIterable := by
  unfold listedObjects Json.IsIterable
  cases value with
  | arr items => simp [Json.elements?]
  | str s => simp [Json.elements?]
  | obj members => simp [Json.elements?]
  | null => simp [Json.isTruthy]
  | bool b => cases b <;> simp [Json.isTruthy, Json.elements?]
  | num n =>
    dsimp only
    cases (Json.num n).isTruthy <;> simp [Json.elements?]

/-! ### Triggers -/

/-- The time limits of a trigger can be cut to integers. -/
def UsableTrigger (trigger : Members) : Prop :=
  ∀ key ∈ ["mfa", "pwd"], (((trigger.inner "configuration").inner key).get "time").IsFinite

theorem usableTrigger_iff (trigger : Members) :
    UsableTrigger trigger ↔
      (((trigger.inner "configuration").inner "mfa").get "time").IsFinite ∧
        (((trigger.inner "configuration").inner "pwd").get "time").IsFinite := by
  simp [UsableTrigger]

theorem usableTrigger_nil : UsableTrigger [] :=
  (usableTrigger_iff []).2 ⟨trivial, trivial⟩

theorem returns_timePair (authentication : Members) :
    Returns (timePair authentication) ↔ (authentication.get "time").IsFinite := by
  unfold timePair
  split
  next b h =>
    rw [h]
    exact iff_of_true (returns_ok _) trivial
  next => exact returns_integerPair _ _ _

theorem returns_authenticationItems (configuration : Members) (key : String) :
    Returns (authenticationItems configuration key) ↔
      ((configuration.inner key).get "time").IsFinite := by
  unfold authenticationItems
  cases configuration.inner key with
  | nil => exact iff_of_true (returns_pure _) trivial
  | cons member rest =>
    exact (returns_bind fun time => returns_pure _).trans (returns_timePair _)

theorem returns_triggerItem (trigger : Members) :
    Returns (triggerItem trigger) ↔ UsableTrigger trigger := by
  rw [usableTrigger_iff]
  unfold triggerItem
  cases trigger.inner "configuration" with
  | nil => exact iff_of_true (returns_pure _) ⟨trivial, trivial⟩
  | cons member rest =>
    rw [← returns_authenticationItems, ← returns_authenticationItems]
    exact returns_bind_iff fun mfa _ => returns_bind fun password => returns_pure _

theorem returns_flowTrigger (document : Members) :
    Returns (flowTrigger document) ↔ UsableTrigger (document.inner "trigger") := by
  unfold flowTrigger Members.inner
  cases document.get "trigger" with
  | obj trigger =>
    exact (returns_bind fun item => returns_pure _).trans (returns_triggerItem trigger)
  | _ => exact iff_of_true (returns_ok _) usableTrigger_nil

theorem returns_policyTrigger (document : Members) :
    Returns (policyTrigger document) ↔ UsableTrigger (document.inner "trigger") := by
  unfold policyTrigger
  cases document.inner "trigger" with
  | nil => exact iff_of_true (returns_pure _) usableTrigger_nil
  | cons member rest =>
    exact (returns_bind fun item => returns_pure _).trans (returns_triggerItem _)

/-! ### Settings -/

/-- The settings of a flow can be written: the known ones can be cut to integers if they are
numbers, and the links to scripts can be gone through. -/
structure UsableSettings (settings : Members) : Prop where
  finite : ∀ setting ∈ settings, (settingNames.lookup setting.1).isSome = true →
    setting.1 ≠ "jsLinks" → setting.2.IsFinite
  links : (settings.get "jsLinks").IsIterable

theorem returns_settingPair (name : String) (value : Json) :
    Returns (settingPair name value) ↔ value.IsFinite := by
  cases value with
  | num n => exact (returns_bind fun text => returns_pure _).trans (returns_integerText n)
  | _ => exact iff_of_true (returns_ok _) trivial

theorem returns_settingPairs (settings : Members) :
    Returns (settingPairs settings) ↔ ∀ setting ∈ settings, setting.2.IsFinite := by
  induction settings with
  | nil => simp [settingPairs]
  | cons setting rest ih =>
    obtain ⟨key, value⟩ := setting
    rw [List.forall_mem_cons, ← ih, ← returns_settingPair ((settingNames.lookup key).getD key)]
    exact returns_bind_iff fun pair _ => returns_bind fun more => returns_pure _

theorem returns_scriptItems (settings : Members) :
    Returns (scriptItems settings) ↔ (settings.get "jsLinks").IsIterable := by
  unfold scriptItems Members.get
  cases settings.get? "jsLinks" with
  | none => exact iff_of_true (returns_ok _) (Or.inr rfl)
  | some value =>
    refine (returns_bind fun links => ?_).trans (returns_listedObjects value)
    split <;> exact returns_pure _

/-- A choice by the key keeps what is found under the keys that are chosen. -/
theorem lookup_filter {p : String → Bool} {key : String} (h : p key = true) (members : Members) :
    (members.filter fun member => p member.1).lookup key = members.lookup key := by
  induction members with
  | nil => rfl
  | cons member rest ih =>
    obtain ⟨k, v⟩ := member
    by_cases hkey : key = k
    · subst hkey
      simp [h]
    · have hne : (key == k) = false := beq_eq_false_iff_ne.2 hkey
      by_cases hk : p k = true
      · simp [hk, List.lookup_cons, hne, ih]
      · simp [hk, List.lookup_cons, hne, ih]

theorem get_knownSettings_jsLinks (settings : Members) :
    (knownSettings settings).get "jsLinks" = settings.get "jsLinks" := by
  have hknown : (settings.filter fun setting => (settingNames.lookup setting.1).isSome).lookup
      "jsLinks" = settings.lookup "jsLinks" :=
    lookup_filter (p := fun key => (settingNames.lookup key).isSome) (by decide) settings
  have hlevel : (("jsLinks" : String) == "logLevel") = false := by decide
  unfold Members.get Members.get?
  rw [← hknown]
  unfold knownSettings
  dsimp only
  split
  next hempty => rw [List.isEmpty_iff.1 hempty]
  next =>
    split
    next => rfl
    next => simp [List.lookup_append, List.lookup_cons, hlevel]

/-- What holds of the level for logging that is added holds of all settings that are written if it
holds of the known ones. -/
theorem forall_knownSettings_iff {P : String × Json → Prop}
    (hlevel : P ("logLevel", .num (.int defaultLogLevel))) (settings : Members) :
    (∀ setting ∈ knownSettings settings, P setting) ↔
      ∀ setting ∈ settings, (settingNames.lookup setting.1).isSome = true → P setting := by
  have hfilter : (∀ setting ∈ settings.filter fun setting => (settingNames.lookup setting.1).isSome,
      P setting) ↔ _ := List.forall_mem_filter
  rw [← hfilter]
  unfold knownSettings
  dsimp only
  split
  next hempty => rw [List.isEmpty_iff.1 hempty]
  next =>
    split
    next => exact Iff.rfl
    next =>
      rw [List.forall_mem_append, and_iff_left_iff_imp]
      intro _ setting hsetting
      rw [List.mem_singleton.1 hsetting]
      exact hlevel

theorem returns_settingsItems (document : Members) :
    Returns (settingsItems document) ↔ UsableSettings (document.inner "settings") := by
  have husable : UsableSettings (document.inner "settings") ↔
      (∀ setting ∈ knownSettings (document.inner "settings"), setting.1 ≠ "jsLinks" →
        setting.2.IsFinite) ∧
      ((knownSettings (document.inner "settings")).get "jsLinks").IsIterable := by
    rw [forall_knownSettings_iff (fun _ => trivial), get_knownSettings_jsLinks]
    exact ⟨fun h => ⟨h.finite, h.links⟩, fun h => ⟨h.1, h.2⟩⟩
  rw [husable]
  unfold settingsItems
  cases knownSettings (document.inner "settings") with
  | nil => exact iff_of_true (returns_pure _) ⟨by simp, Or.inr rfl⟩
  | cons setting rest =>
    have hplain : (∀ other ∈ (sortOn Prod.fst (setting :: rest)).filter fun setting =>
        setting.1 != "jsLinks", other.2.IsFinite) ↔
        ∀ other ∈ setting :: rest, other.1 ≠ "jsLinks" → other.2.IsFinite := by
      simp [(sortOn_perm Prod.fst (setting :: rest)).mem_iff]
    rw [← hplain, ← returns_settingPairs, ← returns_scriptItems]
    exact returns_bind_iff fun pairs _ => returns_bind fun scripts => returns_pure _

/-! ### Versions -/

/-- The version of a flow only counts where references are skipped. -/
theorem returns_flowVersion (context : Context) (document : Members) (unique : String) :
    Returns (flowVersion context document unique) ↔
      (context.skipsReferences = true → (document.get "currentVersion").IsFinite) := by
  unfold flowVersion Members.number?
  cases context.skipsReferences with
  | false => simp
  | true =>
    cases document.get "currentVersion" with
    | num n => exact (returns_integerText n).trans (by simp [Json.IsFinite])
    | _ => exact iff_of_true (returns_ok _) fun _ => trivial

/-! ### Input schemas -/

/-- All that a schema requires can be collected in a set of names. -/
def Members.ListsNames (schema : Members) : Prop :=
  ∀ name ∈ (schema.get "required").items?.getD [], isListable name = true

/-- The text of the schema embedded in a node, empty when there is none. -/
def embeddedText (node : Json) : String :=
  ((Members.inner (Members.inner (node.members?.getD []) "data") "properties").inner
    "inputSchema").text "value"

/-- The schema embedded in a node, if its text is that of an object. -/
def embeddedSchema? (node : Json) : Option Members :=
  match Json.read (embeddedText node) with
  | .ok value => value.members?
  | .error _ => none

/-- The text of an embedded schema is neither too deep nor holds an integer of too many digits,
and all that the schema requires can be collected. A text that is no JSON is passed over. -/
structure UsableNode (node : Json) : Prop where
  depth : Json.read (embeddedText node) ≠ .error .tooDeep
  digits : ∀ count, Json.read (embeddedText node) ≠ .error (.tooManyDigits count)
  names : ∀ schema, embeddedSchema? node = some schema → schema.ListsNames

/-- The part of a compiled schema that holds the properties. -/
def compiledParameters (compiled : Members) : Members :=
  (compiled.get "parameters").members?.getD compiled

/-- The values in the list of nodes of a flow. -/
def nodeValues (document : Members) : List Json :=
  (((document.inner "graphData").inner "elements").get "nodes").items?.getD []

/-- The input schema of a flow can be told: it is given, or there is no compiled one, or what
the compiled one requires can be collected; and if the compiled one has no entries, the schemas
in the nodes can be used. -/
def UsableSchema (document : Members) : Prop :=
  (document.get "inputSchema").items?.getD [] = [] →
    ∀ compiled, (document.get "inputSchemaCompiled").members? = some compiled →
      (compiledParameters compiled).ListsNames ∧
      ((∀ property ∈ (compiledParameters compiled).inner "properties",
        property.2.members? = none) → ∀ node ∈ nodeValues document, UsableNode node)

theorem returns_requiredNames (required : List Json) :
    Returns (requiredNames required) ↔ ∀ name ∈ required, isListable name = true := by
  unfold requiredNames
  by_cases h : required.all isListable = true
  · rw [if_pos h]
    exact iff_of_true (returns_ok _) (List.all_eq_true.1 h)
  · rw [if_neg h]
    exact iff_of_false (not_returns_error _) fun hall => h (List.all_eq_true.2 hall)

theorem returns_deriveEntries (properties : Members) (required : List Json) :
    Returns (deriveEntries properties required) ↔ ∀ name ∈ required, isListable name = true :=
  (returns_bind fun _ => returns_pure _).trans (returns_requiredNames required)

theorem nodeSchema_eq (node : Json) :
    nodeSchema node = if embeddedText node = "" then .ok none
      else match Json.read (embeddedText node) with
        | .ok value => .ok value.members?
        | .error (.malformed _ _) => .ok none
        | .error e => .error (.ofJsonError (embeddedText node) e) := by
  unfold nodeSchema embeddedText
  rfl

theorem read_empty : Json.read "" = .error (.malformed .expectedValue 0) := rfl

/-- The embedded schema of a node, if its text can be read or is passed over. -/
theorem nodeSchema_eq_ok {node : Json} (hdepth : Json.read (embeddedText node) ≠ .error .tooDeep)
    (hdigits : ∀ count, Json.read (embeddedText node) ≠ .error (.tooManyDigits count)) :
    nodeSchema node = .ok (embeddedSchema? node) := by
  rw [nodeSchema_eq]
  unfold embeddedSchema?
  by_cases htext : embeddedText node = ""
  · rw [if_pos htext, htext, read_empty]
  · rw [if_neg htext]
    cases hread : Json.read (embeddedText node) with
    | ok value => rfl
    | error e =>
      cases e with
      | malformed complaint offset => rfl
      | tooManyDigits count => exact absurd hread (hdigits count)
      | tooDeep => exact absurd hread hdepth

theorem returns_nodeSchema (node : Json) :
    Returns (nodeSchema node) ↔
      Json.read (embeddedText node) ≠ .error .tooDeep ∧
        ∀ count, Json.read (embeddedText node) ≠ .error (.tooManyDigits count) := by
  constructor
  · intro h
    by_cases htext : embeddedText node = ""
    · rw [htext, read_empty]
      simp
    · rw [nodeSchema_eq, if_neg htext] at h
      refine ⟨fun hread => ?_, fun count hread => ?_⟩
      · rw [hread] at h
        exact not_returns_error _ h
      · rw [hread] at h
        exact not_returns_error _ h
  · rintro ⟨hdepth, hdigits⟩
    exact ⟨_, nodeSchema_eq_ok hdepth hdigits⟩

/-- When all embedded schemas are there, the entries are those of all of them together. -/
theorem nodeEntries_eq {document : Members}
    (h : ∀ node ∈ nodeValues document, nodeSchema node = .ok (embeddedSchema? node)) :
    nodeEntries document =
      deriveEntries (mergeSchemas ((nodeValues document).filterMap embeddedSchema?)).1
        (mergeSchemas ((nodeValues document).filterMap embeddedSchema?)).2 := by
  have hschemas := mapM_eq_ok h
  unfold nodeValues at hschemas ⊢
  unfold nodeEntries
  dsimp only
  rw [hschemas]
  show deriveEntries (mergeSchemas (List.filterMap id _)).1 _ = _
  rw [List.filterMap_map]
  rfl

/-- Only what they require is left to look at. -/
theorem returns_nodeEntries_iff_names {document : Members}
    (h : ∀ node ∈ nodeValues document, nodeSchema node = .ok (embeddedSchema? node)) :
    Returns (nodeEntries document) ↔ ∀ node ∈ nodeValues document, ∀ schema,
      embeddedSchema? node = some schema → schema.ListsNames := by
  rw [nodeEntries_eq h, returns_deriveEntries]
  unfold mergeSchemas Members.ListsNames
  constructor
  · intro hall node hnode schema hschema name hname
    have hmem := List.mem_filterMap.2 ⟨node, hnode, hschema⟩
    exact hall name (List.mem_flatMap.2 ⟨schema, hmem, hname⟩)
  · intro hall name hname
    obtain ⟨schema, hschema, hname⟩ := List.mem_flatMap.1 hname
    obtain ⟨node, hnode, hschema⟩ := List.mem_filterMap.1 hschema
    exact hall node hnode schema hschema name hname

theorem returns_nodeEntries (document : Members) :
    Returns (nodeEntries document) ↔ ∀ node ∈ nodeValues document, UsableNode node := by
  constructor
  · intro h
    have hread : ∀ node ∈ nodeValues document, Returns (nodeSchema node) :=
      (returns_mapM _).1 h.of_bind
    have hschemas : ∀ node ∈ nodeValues document, nodeSchema node = .ok (embeddedSchema? node) := by
      intro node hnode
      obtain ⟨hdepth, hdigits⟩ := (returns_nodeSchema node).1 (hread node hnode)
      exact nodeSchema_eq_ok hdepth hdigits
    intro node hnode
    obtain ⟨hdepth, hdigits⟩ := (returns_nodeSchema node).1 (hread node hnode)
    exact ⟨hdepth, hdigits, (returns_nodeEntries_iff_names hschemas).1 h node hnode⟩
  · intro h
    have hschemas : ∀ node ∈ nodeValues document, nodeSchema node = .ok (embeddedSchema? node) :=
      fun node hnode => nodeSchema_eq_ok (h node hnode).depth (h node hnode).digits
    exact (returns_nodeEntries_iff_names hschemas).2 fun node hnode => (h node hnode).names

/-- There are no entries only if no property is an object. -/
theorem deriveEntries_eq_nil_iff {properties : Members} {required : List Json}
    {entries : List SchemaEntry} (h : deriveEntries properties required = .ok entries) :
    entries = [] ↔ ∀ property ∈ properties, property.2.members? = none := by
  unfold deriveEntries at h
  cases hnames : requiredNames required with
  | error failure =>
    rw [hnames] at h
    cases h
  | ok names =>
    rw [hnames] at h
    rw [← Except.ok.inj h, List.filterMap_eq_nil_iff]
    simp [(sortOn_perm Prod.fst properties).mem_iff]

theorem returns_inputSchema (document : Members) :
    Returns (inputSchema document) ↔ UsableSchema document := by
  unfold inputSchema UsableSchema
  cases (document.get "inputSchema").items?.getD [] with
  | cons item rest => exact iff_of_true (returns_ok _) (by simp)
  | nil =>
    cases (document.get "inputSchemaCompiled").members? with
    | none => exact iff_of_true (returns_ok _) (by simp)
    | some compiled =>
      simp only [forall_const, Option.some.injEq, forall_eq']
      rw [← returns_nodeEntries]
      refine (returns_bind_iff fun entries hentries => ?_).trans
        (and_congr_left' (returns_deriveEntries _ _))
      have hderived : deriveEntries ((compiledParameters compiled).inner "properties")
          (((compiledParameters compiled).get "required").items?.getD []) = .ok entries := hentries
      rw [← deriveEntries_eq_nil_iff hderived]
      by_cases hempty : entries = []
      · simp [hempty]
      · simp [hempty]

theorem returns_inputSchemaItems (document : Members) :
    Returns (inputSchemaItems document) ↔ UsableSchema document := by
  unfold inputSchemaItems
  refine (returns_bind fun entries => ?_).trans (returns_inputSchema document)
  split <;> exact returns_pure _

/-! ### Diagrams and distributions -/

section Drafts

variable {α β : Type} {answer : Request → Hcl.Expression}

theorem Draft.returns_bind {d : Draft α} {f : α → Draft β}
    (hd : Returns (d.result answer)) (hf : ∀ a, Returns ((f a).result answer)) :
    Returns ((d >>= f).result answer) := by
  rw [Draft.result_bind]
  exact (HclExport.returns_bind hf).2 hd

theorem Draft.returns_bind_iff {d : Draft α} {f : α → Draft β} {p : Prop}
    (hd : Returns (d.result answer)) (hf : ∀ a, Returns ((f a).result answer) ↔ p) :
    Returns ((d >>= f).result answer) ↔ p := by
  rw [Draft.result_bind, HclExport.returns_bind_iff fun a _ => hf a]
  exact and_iff_right hd

theorem Draft.returns_lift_bind {result : Except Failure α} {f : α → Draft β}
    (hf : ∀ a, Returns ((f a).result answer)) :
    Returns ((liftM result >>= f : Draft β).result answer) ↔ Returns result := by
  rw [Draft.result_bind]
  exact HclExport.returns_bind hf

theorem Draft.returns_ask (request : Request) : Returns ((Draft.ask request).result answer) :=
  returns_ok _

variable (source : Resource)

theorem returns_referencePair (field name id : String) :
    Returns ((referencePair source field name id).result answer) := by
  unfold referencePair
  split
  · exact returns_ok _
  · exact Draft.returns_bind (Draft.returns_ask _) fun reference => returns_ok _

theorem returns_propertyReferences (properties : Members) (references : List (String × String)) :
    Returns ((propertyReferences source properties references).result answer) := by
  induction references with
  | nil => exact returns_ok _
  | cons reference rest ih =>
    obtain ⟨key, field⟩ := reference
    unfold propertyReferences
    dsimp only
    split
    · exact ih
    · exact Draft.returns_bind (Draft.returns_ask _) fun reference =>
        Draft.returns_bind ih fun more => returns_ok _

theorem returns_nodeItem (index : Nat) (node : Members) :
    Returns ((nodeItem source index node).result answer) := by
  have hproperties (data : Members) : Returns ((nodePropertyItems source data).result answer) := by
    unfold nodePropertyItems
    split
    · exact Draft.returns_bind (returns_propertyReferences source _ _) fun references =>
        returns_ok _
    · exact returns_ok _
  have hdata (data : Members) : Returns ((nodeDataItem source data).result answer) :=
    Draft.returns_bind (returns_referencePair source _ _ _) fun connection =>
      Draft.returns_bind (hproperties data) fun properties => returns_ok _
  unfold nodeItem
  simp only [pure_bind]
  cases node.inner "data" with
  | nil => exact returns_ok _
  | cons member rest => exact Draft.returns_bind (hdata _) fun item => returns_ok _

theorem returns_nodeItems (index : Nat) (nodes : List Members) :
    Returns ((nodeItems source index nodes).result answer) := by
  induction nodes generalizing index with
  | nil => exact returns_ok _
  | cons node rest ih =>
    exact Draft.returns_bind (returns_nodeItem source index node) fun item =>
      Draft.returns_bind (ih (index + 1)) fun more => returns_ok _

theorem returns_elementGroups (elements : Members) :
    Returns ((elementGroups source elements).result answer) := by
  unfold elementGroups
  simp only [pure_bind]
  cases elements.get "nodes" with
  | arr items => exact Draft.returns_bind (returns_nodeItems source 0 _) fun items => returns_ok _
  | _ => exact returns_ok _

/-- Of a diagram, only the zoom is used without a look. -/
theorem returns_diagramItems (document : Members) :
    Returns ((diagramItems source document).result answer) ↔
      ((document.inner "graphData").get "zoom").IsFinite := by
  have hview (diagram : Members) : Returns (viewItems diagram) ↔ (diagram.get "zoom").IsFinite :=
    (returns_bind fun zoom => returns_pure _).trans (returns_integerPair _ _ _)
  have hbody (diagram : Members) : Returns ((diagramBody source diagram).result answer) ↔
      (diagram.get "zoom").IsFinite := by
    rw [← hview]
    unfold diagramBody
    simp only [pure_bind]
    cases diagram.get "elements" with
    | obj elements =>
      exact Draft.returns_bind_iff (returns_elementGroups source elements) fun groups =>
        Draft.returns_lift_bind fun view => returns_ok _
    | _ => exact Draft.returns_lift_bind fun view => returns_ok _
  unfold diagramItems Members.inner
  cases document.get "graphData" with
  | obj diagram =>
    refine Iff.trans ?_ (hbody diagram)
    rw [Draft.result_bind]
    exact returns_bind fun body => returns_ok _
  | _ => exact iff_of_true (returns_ok _) trivial

/-- The flows of a policy can be listed, and their versions and weights cut to integers. -/
structure UsableDistributions (document : Members) : Prop where
  listed : (document.get "flowDistributions").IsIterable
  shares : ∀ distribution ∈ document.objects "flowDistributions",
    (distribution.get "version").IsFinite ∧ (distribution.get "weight").IsFinite

theorem returns_distributionItem (distribution : Members) :
    Returns ((distributionItem source distribution).result answer) ↔
      (distribution.get "version").IsFinite ∧ (distribution.get "weight").IsFinite := by
  refine Draft.returns_bind_iff (returns_referencePair source _ _ _) fun flow => ?_
  rw [Draft.result_bind, ← returns_integerPair _ _ "version", ← returns_integerPair _ _ "weight"]
  exact returns_bind_iff fun version _ => Draft.returns_lift_bind fun weight => returns_ok _

theorem Draft.returns_mapM {f : α → Draft β} (xs : List α) :
    Returns ((xs.mapM f).result answer) ↔ ∀ x ∈ xs, Returns ((f x).result answer) := by
  induction xs with
  | nil => exact iff_of_true (returns_ok _) (by simp)
  | cons x xs ih =>
    rw [List.mapM_cons, List.forall_mem_cons, ← ih, Draft.result_bind]
    refine HclExport.returns_bind_iff fun y _ => ?_
    rw [Draft.result_bind]
    exact HclExport.returns_bind fun ys => returns_ok _

theorem returns_distributionItems (document : Members) :
    Returns ((distributionItems source document).result answer) ↔
      UsableDistributions document := by
  have husable : UsableDistributions document ↔
      Returns (listedObjects (document.get "flowDistributions")) ∧
        ∀ distribution ∈ document.objects "flowDistributions",
          Returns ((distributionItem source distribution).result answer) := by
    simp only [returns_listedObjects, returns_distributionItem]
    exact ⟨fun h => ⟨h.listed, h.shares⟩, fun h => ⟨h.1, h.2⟩⟩
  rw [husable]
  unfold distributionItems
  rw [Draft.result_bind]
  refine returns_bind_iff fun distributions hlisted => ?_
  rw [← listedObjects_get hlisted, ← Draft.returns_mapM]
  cases distributions with
  | nil => exact iff_of_true (returns_ok _) (returns_ok _)
  | cons distribution rest =>
    refine Iff.trans (Eq.to_iff (congrArg Returns (Draft.result_bind _ _))) ?_
    exact returns_bind fun items => returns_ok _

end Drafts

end HclExport
