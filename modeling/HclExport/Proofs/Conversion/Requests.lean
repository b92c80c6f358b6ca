import HclExport.Conversion.Registry
import HclExport.Proofs.Conversion.Draft
import HclExport.Proofs.Document.Path
import Mathlib.Data.List.Perm.Basic

/-!
# Blocks ask for what is declared

The paths declared for a kind and the conversion of its documents are given apart: the one
says where ids stand, the other goes through nodes, properties and distributions by itself.
Both come upon the same ids, as often as they occur.

## Main definitions

* `declaredRequests` — the references to the ids at the declared paths.
* `requestsAt`, `nodeRequests` — the references in a field, and those of a node.
* `Context.KnowsOwner` — the owner of a policy is the one that its document names.

## Main results

* `steady_diagramItems`, `steady_distributionItems` — what diagrams and distributions ask for.
* `exists_path_of_mem_declaredRequests` — where a declared reference stands.
* `Kind.exists_asks` — **a document asks for the references at its declared paths.**
-/

namespace HclExport

/-- The references in a field to some ids. -/
def requestsAt (source : Resource) (field : String) (ids : List String) : List Request :=
  ids.map fun id => ⟨source, field, id⟩

@[simp] theorem requestsAt_nil (source : Resource) (field : String) :
    requestsAt source field [] = [] := rfl

/-- The references to the ids at the declared paths, path by path. -/
def declaredRequests (source : Resource) (document : Members) : List Request :=
  source.ref.kind.schema.flatMap fun path =>
    requestsAt source path.field (extractTexts (.obj document) path.path)

/-- A declared reference comes from a path and a text that stands there. -/
theorem exists_path_of_mem_declaredRequests {source : Resource} {document : Members}
    {request : Request} (h : request ∈ declaredRequests source document) :
    ∃ path ∈ source.ref.kind.schema, ∃ id ∈ extractTexts (.obj document) path.path,
      request = ⟨source, path.field, id⟩ := by
  obtain ⟨path, hpath, h⟩ := List.mem_flatMap.1 h
  obtain ⟨id, hid, rfl⟩ := List.mem_map.1 h
  exact ⟨path, hpath, id, hid, rfl⟩

theorem requestsAt_flatMap {α : Type} (source : Resource) (field : String) (xs : List α)
    (ids : α → List String) :
    requestsAt source field (xs.flatMap ids) =
      xs.flatMap fun x => requestsAt source field (ids x) :=
  List.map_flatMap

/-! ### The declared paths -/

/-- The nodes of a flow. -/
def nodesOf (document : Members) : List Members :=
  ((document.inner "graphData").inner "elements").objects "nodes"

/-- Paths into the data of the nodes. -/
theorem reach_nodes (segment : Segment) (rest : List Segment) (document : Members) :
    Segment.reach (.member "graphData" :: .member "elements" :: .items "nodes" ::
        .member "data" :: segment :: rest) (.obj document) =
      (nodesOf document).flatMap fun node =>
        Segment.reach (segment :: rest) (.obj (node.inner "data")) := by
  -- two members down to the list of nodes, and one more inside every node
  rw [Segment.reach_member, Segment.reach_member, Segment.reach_items]
  simp only [Segment.reach_member]
  rfl

theorem extractTexts_connectionId (document : Members) :
    extractTexts (.obj document) "graphData.elements.nodes[*].data.connectionId" =
      (nodesOf document).flatMap fun node =>
        givenTexts ((node.inner "data").text "connectionId") := by
  have hpath : (splitPath "graphData.elements.nodes[*].data.connectionId").map Segment.ofText =
      [.member "graphData", .member "elements", .items "nodes", .member "data",
        .member "connectionId"] := by decide
  rw [extractTexts_eq, hpath, reach_nodes, List.filterMap_flatMap]
  simp only [Segment.givenTexts_reach_member]

/-- Paths into the properties of the nodes. -/
theorem extractTexts_property (path key : String) (document : Members)
    (hpath : (splitPath path).map Segment.ofText =
      [.member "graphData", .member "elements", .items "nodes", .member "data",
        .member "properties", .member key]) :
    extractTexts (.obj document) path =
      (nodesOf document).flatMap fun node =>
        givenTexts (((node.inner "data").inner "properties").text key) := by
  rw [extractTexts_eq, hpath, reach_nodes, List.filterMap_flatMap]
  simp only [Segment.reach_member, Segment.givenTexts_reach_member]

theorem extractTexts_distributions (document : Members) :
    extractTexts (.obj document) "flowDistributions[*].id" =
      (document.objects "flowDistributions").flatMap fun distribution =>
        givenTexts (distribution.text "id") := by
  have hpath : (splitPath "flowDistributions[*].id").map Segment.ofText =
      [.items "flowDistributions", .member "id"] := by decide
  rw [extractTexts_eq, hpath, Segment.reach_items, List.filterMap_flatMap]
  simp only [Segment.givenTexts_reach_member]

theorem extractTexts_applicationId (document : Members) :
    extractTexts (.obj document) "applicationId" = givenTexts (document.text "applicationId") := by
  have hpath : (splitPath "applicationId").map Segment.ofText = [.member "applicationId"] := by
    decide
  rw [extractTexts_eq, hpath, Segment.givenTexts_reach_member]

/-! ### Parts of blocks -/

section Parts

variable {answer : Request → Hcl.Expression} (source : Resource)

theorem steady_referencePair (field name id : String) :
    (referencePair source field name id).Steady answer
      (requestsAt source field (givenTexts id)) := by
  unfold referencePair
  split
  next h =>
    rw [h]
    exact .pure []
  next h =>
    rw [givenTexts, if_neg h]
    exact (Draft.Steady.ask _).bind_pure _

/-- The references among the properties of a node. -/
def propertyRequests (properties : Members) (references : List (String × String)) :
    List Request :=
  references.flatMap fun reference =>
    requestsAt source reference.2 (givenTexts (properties.text reference.1))

@[simp] theorem propertyRequests_nil (references : List (String × String)) :
    propertyRequests source [] references = [] := by
  simp [propertyRequests]

theorem steady_propertyReferences (properties : Members) (references : List (String × String)) :
    (propertyReferences source properties references).Steady answer
      (propertyRequests source properties references) := by
  induction references with
  | nil => exact .pure []
  | cons reference rest ih =>
    obtain ⟨key, field⟩ := reference
    unfold propertyReferences
    rw [propertyRequests, List.flatMap_cons]
    by_cases h : properties.text key = ""
    · rw [if_pos h, h]
      exact ih
    · rw [if_neg h, givenTexts, if_neg h]
      exact (Draft.Steady.ask _).bind fun reference => ih.bind_pure _

/-- The references of a node: its connection, and those among its properties. -/
def nodeRequests (node : Members) : List Request :=
  let data := node.inner "data"
  requestsAt source "connection_id" (givenTexts (data.text "connectionId")) ++
    propertyRequests source (data.inner "properties") nodeReferences

theorem steady_nodePropertyItems (data : Members) :
    (nodePropertyItems source data).Steady answer
      (propertyRequests source (data.inner "properties") nodeReferences) := by
  unfold nodePropertyItems Members.inner
  split
  next properties h =>
    rw [h]
    exact (steady_propertyReferences source properties nodeReferences).bind_pure _
  next h =>
    -- what is no object counts as one without members, which asks for nothing
    have hnone : (data.get "properties").members? = none := by
      cases hvalue : data.get "properties" with
      | obj members => exact absurd hvalue (h members)
      | _ => rfl
    rw [hnone, Option.getD_none, propertyRequests_nil]
    exact .pure []

theorem steady_nodeDataItem (data : Members) :
    (nodeDataItem source data).Steady answer
      (requestsAt source "connection_id" (givenTexts (data.text "connectionId")) ++
        propertyRequests source (data.inner "properties") nodeReferences) :=
  (steady_referencePair source _ _ _).bind fun _ =>
    (steady_nodePropertyItems source data).bind_pure _

theorem steady_nodeItem (index : Nat) (node : Members) :
    (nodeItem source index node).Steady answer (nodeRequests source node) := by
  unfold nodeItem nodeRequests
  simp only [pure_bind]
  cases node.inner "data" with
  | nil =>
    -- without data the block of a node is left out, but nothing could be asked for either
    exact .pure _
  | cons member rest => exact (steady_nodeDataItem source (member :: rest)).bind_pure _

theorem steady_nodeItems (index : Nat) (nodes : List Members) :
    (nodeItems source index nodes).Steady answer (nodes.flatMap (nodeRequests source)) := by
  induction nodes generalizing index with
  | nil => exact .pure []
  | cons node rest ih =>
    unfold nodeItems
    rw [List.flatMap_cons]
    exact (steady_nodeItem source index node).bind fun item => (ih (index + 1)).bind_pure _

/-- Nodes are gone through in the order of their ids. -/
theorem steady_elementGroups (elements : Members) :
    ∃ nodes : List Members, nodes.Perm (elements.objects "nodes") ∧
      (elementGroups source elements).Steady answer (nodes.flatMap (nodeRequests source)) := by
  unfold elementGroups Members.objects
  simp only [pure_bind]
  cases elements.get "nodes" with
  | arr items =>
    refine ⟨sortElements items, sortOn_perm elementId _, ?_⟩
    exact (steady_nodeItems source 0 (sortElements items)).bind_pure _
  | _ => exact ⟨[], List.Perm.refl _, .pure _⟩

theorem steady_diagramBody (diagram : Members) :
    ∃ nodes : List Members, nodes.Perm ((diagram.inner "elements").objects "nodes") ∧
      (diagramBody source diagram).Steady answer (nodes.flatMap (nodeRequests source)) := by
  unfold diagramBody Members.inner
  simp only [pure_bind]
  cases diagram.get "elements" with
  | obj elements =>
    obtain ⟨nodes, hperm, hsteady⟩ := @steady_elementGroups answer source elements
    refine ⟨nodes, hperm, hsteady.bind_silent fun groups => ?_⟩
    exact .lift_bind (noFault_viewItems diagram) fun _ _ => .pure _
  | _ =>
    refine ⟨[], List.Perm.refl _, ?_⟩
    exact .lift_bind (noFault_viewItems diagram) fun _ _ => .pure _

theorem steady_diagramItems (document : Members) :
    ∃ nodes : List Members, nodes.Perm (nodesOf document) ∧
      (diagramItems source document).Steady answer (nodes.flatMap (nodeRequests source)) := by
  unfold diagramItems nodesOf
  rw [show document.inner "graphData" = ((document.get "graphData").members?).getD [] from rfl]
  cases document.get "graphData" with
  | obj diagram =>
    obtain ⟨nodes, hperm, hsteady⟩ := @steady_diagramBody answer source diagram
    exact ⟨nodes, hperm, hsteady.bind_pure _⟩
  | _ => exact ⟨[], List.Perm.refl _, .pure _⟩

theorem steady_distributionItem (distribution : Members) :
    (distributionItem source distribution).Steady answer
      (requestsAt source "flow_id" (givenTexts (distribution.text "id"))) :=
  (steady_referencePair source _ _ _).bind_silent fun _ =>
    .lift_bind (noFault_integerPair _ _ _) fun _ _ =>
      .lift_bind (noFault_integerPair _ _ _) fun _ _ => .pure _

/-- The objects in a list are those that a path finds there. -/
theorem listedObjects_get {document : Members} {key : String} {found : List Members}
    (h : listedObjects (document.get key) = .ok found) : found = document.objects key := by
  unfold Members.objects
  unfold listedObjects at h
  split at h
  next items hvalue =>
    rw [hvalue]
    exact (Except.ok.inj h).symm
  next text hvalue =>
    rw [hvalue]
    exact (Except.ok.inj h).symm
  next members hvalue =>
    rw [hvalue]
    exact (Except.ok.inj h).symm
  next harr hstr hobj =>
    -- no list at all: an empty value has no objects, and any other one fails
    split at h
    next => cases h
    next =>
      split
      next items hvalue => exact absurd hvalue (harr items)
      next => exact (Except.ok.inj h).symm

theorem steady_distributionItems (document : Members) :
    (distributionItems source document).Steady answer
      ((document.objects "flowDistributions").flatMap fun distribution =>
        requestsAt source "flow_id" (givenTexts (distribution.text "id"))) := by
  unfold distributionItems
  refine .lift_bind (noFault_listedObjects _) fun distributions h => ?_
  rw [← listedObjects_get h]
  cases distributions with
  | nil => exact .pure []
  | cons distribution rest =>
    exact (Draft.Steady.mapM (steady_distributionItem source) _).bind_pure _

end Parts

/-! ### Whole blocks -/

/-- The owner of a policy, if there is one, is the application that its document names. -/
def Context.KnowsOwner (context : Context) (document : Members) : Prop :=
  ∀ owner, owningApplication context document = .ok owner →
    owner.getD "" = document.text "applicationId"

/-- The declared references of a flow, node by node. -/
theorem declaredRequests_flow {source : Resource} (h : source.ref.kind = .flow)
    (document : Members) :
    ((nodesOf document).flatMap (nodeRequests source)).Perm (declaredRequests source document) := by
  have hvariable := extractTexts_property
    "graphData.elements.nodes[*].data.properties.variableId" "variableId" document (by decide)
  have hsubFlow := extractTexts_property
    "graphData.elements.nodes[*].data.properties.subFlowId" "subFlowId" document (by decide)
  have hnodes : nodeReferences = [("variableId", "variable_id"), ("subFlowId", "subflow_id")] := by
    decide
  unfold declaredRequests
  rw [h]
  simp only [Kind.schema, List.flatMap_cons, List.flatMap_nil, extractTexts_connectionId,
    hvariable, hsubFlow, requestsAt_flatMap, List.append_nil]
  unfold nodeRequests propertyRequests
  simp only [hnodes, List.flatMap_cons, List.flatMap_nil, List.append_nil]
  -- node by node on the one side, path by path on the other
  exact (List.flatMap_append_perm _ _ _).symm.trans
    ((List.flatMap_append_perm _ _ _).symm.append_left _)

/-- The declared references of a flow policy. -/
theorem declaredRequests_flowPolicy {source : Resource} (h : source.ref.kind = .flowPolicy)
    (document : Members) :
    (requestsAt source "application_id" (givenTexts (document.text "applicationId")) ++
      (document.objects "flowDistributions").flatMap fun distribution =>
        requestsAt source "flow_id" (givenTexts (distribution.text "id"))).Perm
      (declaredRequests source document) := by
  unfold declaredRequests
  rw [h]
  simp only [Kind.schema, List.flatMap_cons, List.flatMap_nil, extractTexts_distributions,
    extractTexts_applicationId, requestsAt_flatMap, List.append_nil]
  exact List.perm_append_comm

theorem asks_draftFlow {context : Context} {document : Members} {id : String}
    (hid : resourceId .flow document = .ok id) :
    ∃ nodes : List Members, nodes.Perm (nodesOf document) ∧
      (draftFlow context document).Asks context.answer
        (nodes.flatMap (nodeRequests (context.sourceOf ⟨.flow, id⟩))) := by
  obtain ⟨nodes, hperm, hsteady⟩ :=
    @steady_diagramItems context.answer (context.sourceOf ⟨.flow, id⟩) document
  refine ⟨nodes, hperm, ?_⟩
  unfold draftFlow
  refine .lift_bind fun name _ => .lift_bind fun id' hid' => ?_
  obtain rfl : id' = id := by
    rw [hid] at hid'
    exact (Except.ok.inj hid').symm
  -- from here on there is no fault any more, and the diagram alone asks for references
  refine .lift_bind fun enabled _ => .lift_bind fun unique _ => Draft.Steady.asks ?_
  refine .lift_bind (noFault_settingsItems document) fun settings _ => ?_
  refine hsteady.bind_silent fun diagram => ?_
  exact .lift_bind (noFault_inputSchemaItems document) fun _ _ =>
    .lift_bind (noFault_flowTrigger document) fun _ _ =>
      .lift_bind (noFault_flowVersion context document _) fun _ _ => .pure _

theorem asks_draftFlowPolicy {context : Context} {document : Members} {id : String}
    (hid : resourceId .flowPolicy document = .ok id) (howner : context.KnowsOwner document) :
    (draftFlowPolicy context document).Asks context.answer
      (requestsAt (context.sourceOf ⟨.flowPolicy, id⟩) "application_id"
          (givenTexts (document.text "applicationId")) ++
        (document.objects "flowDistributions").flatMap fun distribution =>
          requestsAt (context.sourceOf ⟨.flowPolicy, id⟩) "flow_id"
            (givenTexts (distribution.text "id"))) := by
  unfold draftFlowPolicy
  refine .lift_bind fun name _ => .lift_bind fun id' hid' => ?_
  obtain rfl : id' = id := by
    rw [hid] at hid'
    exact (Except.ok.inj hid').symm
  refine .lift_bind fun unique _ => .lift_bind fun owner hok => Draft.Steady.asks ?_
  have howner : owner.getD "" = document.text "applicationId" := by
    cases hresult : owningApplication context document with
    | error fault =>
      rw [hresult] at hok
      cases hok
    | ok found =>
      rw [hresult] at hok
      obtain rfl : found = owner := Except.ok.inj hok
      exact howner found hresult
  rw [← howner]
  refine (steady_referencePair _ _ _ _).bind fun application => ?_
  refine .lift_bind (noFault_policyTrigger document) fun trigger _ => ?_
  exact (steady_distributionItems _ document).bind_pure _

/-- A document of a kind without declared paths asks for nothing. -/
theorem asks_nil {kind : Kind} (hflow : kind ≠ .flow) (hpolicy : kind ≠ .flowPolicy)
    (context : Context) (document : Members) :
    (kind.converter.draft context document).Asks context.answer [] := by
  cases kind with
  | «variable» =>
    -- as many steps as may meet a fault, and then the block
    exact .lift_bind fun _ _ => .lift_bind fun _ _ => .lift_bind fun _ _ => .lift_bind fun _ _ =>
      .lift_bind fun _ _ => Draft.Steady.asks (.pure _)
  | connectorInstance =>
    exact .lift_bind fun _ _ => .lift_bind fun _ _ => .lift_bind fun _ _ => .lift_bind fun _ _ =>
      Draft.Steady.asks (.pure _)
  | flow => exact absurd rfl hflow
  | application =>
    exact .lift_bind fun _ _ => .lift_bind fun _ _ => .lift_bind fun _ _ =>
      Draft.Steady.asks (.pure _)
  | flowPolicy => exact absurd rfl hpolicy

/-- **A document asks for the references at the paths that are declared for its kind**, as
often as their ids stand there, and for none if it meets a fault. -/
theorem Kind.exists_asks (kind : Kind) {context : Context} {document : Members} {id : String}
    (hid : resourceId kind document = .ok id)
    (howner : kind = .flowPolicy → context.KnowsOwner document)
    (hsource : (context.sourceOf ⟨kind, id⟩).ref.kind = kind) :
    ∃ expected : List Request,
      expected.Perm (declaredRequests (context.sourceOf ⟨kind, id⟩) document) ∧
      (kind.converter.draft context document).Asks context.answer expected := by
  by_cases hflow : kind = .flow
  · subst hflow
    obtain ⟨nodes, hperm, hasks⟩ := @asks_draftFlow context document id hid
    exact ⟨_, (hperm.flatMap_right _).trans (declaredRequests_flow hsource document), hasks⟩
  by_cases hpolicy : kind = .flowPolicy
  · subst hpolicy
    exact ⟨_, declaredRequests_flowPolicy hsource document,
      asks_draftFlowPolicy hid (howner rfl)⟩
  -- the other kinds have no declared paths
  refine ⟨[], ?_, asks_nil hflow hpolicy context document⟩
  unfold declaredRequests
  rw [hsource]
  cases kind with
  | flow => exact absurd rfl hflow
  | flowPolicy => exact absurd rfl hpolicy
  | _ => exact List.Perm.refl _

end HclExport
