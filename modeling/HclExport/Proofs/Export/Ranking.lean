import HclExport.Proofs.Export.Run
import HclExport.Proofs.Graph.Levels
import HclExport.Proofs.Graph.Rank

/-!
# References of an export and the order of kinds

The references of a sealed graph were found at declared paths, so they keep to the order in which
the kinds are exported, up to sub-flows.

## Main results

* `Intake.Complete.followsSchemas` — the references of an export stand at declared paths.
* `ExportResult.references_ranked` — **where references lead, what cycles are made of, and how many
  levels there are.**
-/

namespace HclExport

/-- The references of an export stand at declared paths. -/
theorem Intake.Complete.followsSchemas {settings : ExportSettings} {intake : Intake}
    (h : intake.Complete settings) : intake.graph.FollowsSchemas := by
  intro e he
  rw [h.edges] at he
  obtain ⟨entry, -, he⟩ := List.mem_flatMap.1 he
  unfold Graph.edgesOf at he
  split at he
  next edges hparse =>
    obtain ⟨path, hpath, id, -, rfl⟩ := exists_path_of_mem_parseReferences hparse he
    exact ⟨path, hpath, rfl, rfl⟩
  next => cases he

namespace ExportResult

variable {settings : ExportSettings} {batch : Batch} {result : ExportResult}

/-- **References keep to the order of kinds, up to sub-flows.** Every reference of the sealed graph
leads to a kind before that of its source, or from a flow to a flow. So every member of a cycle that
is reported is a flow, and every step of it is a reference to a sub-flow. If no cycle is reported,
there are at most two levels more than there are flows. -/
theorem references_ranked (h : runExport .standard settings batch = .ok result) :
    (∀ e ∈ result.graph.graph.edges, e.target.kind.rank < e.source.ref.kind.rank ∨
      e.source.ref.kind = .flow ∧ e.target.kind = .flow) ∧
    (∀ cycle ∈ result.graphReport.cycles, (∀ ref ∈ cycle, ref.kind = .flow) ∧
      cycle.IsChain fun a b => result.graph.graph.Refers a b ∧
        ∀ e ∈ result.graph.graph.edges, e.source.ref = a → e.target = b →
          e.field = "subflow_id") ∧
    (result.graphReport.cycles = [] → ∃ n, result.graphReport.order = .ok n ∧
      n ≤ result.graph.graph.countOf .flow + 2) := by
  have hcomplete := (follows_of_runExport h).complete
  have hwf : result.graph.graph.WellFormed := hcomplete.wellFormed.close
  have hschemas : result.graph.graph.FollowsSchemas := hcomplete.followsSchemas
  refine ⟨?_, ?_, ?_⟩
  · intro e he
    exact (hschemas.rank_lt_or_subflow he).imp_right fun hsubflow => ⟨hsubflow.1, hsubflow.2.1⟩
  · intro cycle hcycle
    have hiscycle := ((Graph.sweeps_cycles _).isCycle hwf).1 cycle hcycle
    exact ⟨fun ref href => hschemas.kind_of_cycle (hiscycle.1.transGen_of_mem href),
      hschemas.isChain_of_isCycle hiscycle.1⟩
  · intro hnone
    have hacyclic := hwf.cycles_eq_nil_iff.1 hnone
    obtain ⟨n, hn⟩ := Graph.exists_waveCount_of_acyclic hacyclic
    exact ⟨n, hwf.order_report_of_acyclic hacyclic hn _,
      (Graph.isLeast_of_waveCount hn).2 (hschemas.hasWaves hacyclic)⟩

/-- A policy for a flow that calls another flow, which uses a connector instance. -/
def nestedFlows : Batch where
  documents :=
    [(.connectorInstance, [("id", .str "c"), ("name", .str "Form")]),
     (.flow, flowWithNodes "f" "Login" [calling "g"]),
     (.flow, flowWithNodes "g" "Enrol" [[("id", .str "n"), ("connectionId", .str "c")]]),
     (.flowPolicy, [("id", .str "p"), ("name", .str "Web"), ("applicationId", .str "a"),
       ("flowDistributions", .arr [.obj [("id", .str "f")]])])]
where
  calling (id : String) : Members :=
    [("id", .str "n"), ("connectionId", .str "c"), ("properties", .obj [("subFlowId", .str id)])]

/-- Two flows that call each other. -/
def mutualFlows : Batch where
  documents :=
    [(.flow, flowWithNodes "f" "Login" [nestedFlows.calling "g"]),
     (.flow, flowWithNodes "g" "Enrol" [nestedFlows.calling "f"])]

/-- Two flows with a kind before and a kind behind them need four levels, which is the most that is
possible; flows that call each other make a cycle of flows. -/
theorem references_ranked_nestedFlows :
    (∃ result, runExport .standard .plain nestedFlows = .ok result ∧
      result.graphReport.cycles = [] ∧ result.graph.graph.countOf .flow = 2 ∧
      ∃ n, result.graphReport.order = .ok n ∧ n = 4 ∧
        n ≤ result.graph.graph.countOf .flow + 2) ∧
    ∃ result, runExport .standard .plain mutualFlows = .ok result ∧
      ∃ cycle ∈ result.graphReport.cycles, cycle.length = 3 ∧ ∀ ref ∈ cycle, ref.kind = .flow := by
  constructor
  · have h : (runExport .standard .plain nestedFlows).toOption.any
        (fun result => result.graphReport.cycles.isEmpty &&
          (result.graph.graph.countOf .flow == 2 &&
            result.graphReport.order.toOption == some 4)) = true := by
      decide +kernel
    obtain ⟨result, hresult, h⟩ := exists_ok_of_any h
    obtain ⟨hcycles, h⟩ := Bool.and_eq_true_iff.1 h
    obtain ⟨hflows, horder⟩ := Bool.and_eq_true_iff.1 h
    have hnone := List.isEmpty_iff.1 hcycles
    obtain ⟨n, hn, hle⟩ := (references_ranked hresult).2.2 hnone
    have hfour : n = 4 := by
      rw [hn] at horder
      exact Option.some.inj (eq_of_beq horder)
    exact ⟨result, hresult, hnone, eq_of_beq hflows, n, hn, hfour, hle⟩
  · have h : (runExport .standard .plain mutualFlows).toOption.any
        (fun result => result.graphReport.cycles.any fun cycle => cycle.length == 3) = true := by
      decide +kernel
    obtain ⟨result, hresult, h⟩ := exists_ok_of_any h
    obtain ⟨cycle, hcycle, hlength⟩ := List.any_eq_true.1 h
    exact ⟨result, hresult, cycle, hcycle, eq_of_beq hlength,
      ((references_ranked hresult).2.1 cycle hcycle).1⟩

end ExportResult

end HclExport
