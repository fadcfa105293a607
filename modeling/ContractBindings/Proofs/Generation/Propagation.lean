import Mathlib.Data.List.Count
import ContractBindings.Proofs.Generation.Stages
import ContractBindings.Proofs.Model.Propagation

/-!
# Failures in the model of a document

Where all definitions of a document are component schemas its graph is coherent (`graph_coherent`): what stands in a
definition stands below it, or below the one it was taken over from. So the model generates the definitions that reach
no broken one, whatever their order, and has one error about each of the others (`model_generates`).
-/

namespace ContractBindings

open SchemaId Lowering

namespace Slots

variable {s : Slots}

/-- What stands in a definition that is finished stands below one. -/
theorem Good.below_of_holds (hgood : s.Good) (hdirect : s.Direct) {k : SchemaId} {n m : SchemaNode}
    (hk : s.Finished k n) (hm : n.shape.Holds m) :
    ∃ k n, s.Finished k n ∧ n.shape.Holds m ∧ SchemaId.Below k m.id := by
  rcases (hgood hdirect hk).shape.inside.place hm with hbelow | hstored
  · exact ⟨k, n, hk, hm, hbelow⟩
  · exact hstored

theorem Direct.isComponent (hdirect : s.Direct) {k : SchemaId} {n : SchemaNode} (hk : s.Finished k n) :
    k.IsComponent := hdirect k (lookup_isSome_iff.1 (by rw [hk]; rfl))

theorem finished_iff (hs : Grows [] s) {k : SchemaId} {n : SchemaNode} :
    s.Finished k n ↔ ∃ d ∈ s.graph.definitions, d.id = k ∧ d.node = .ok n := by
  constructor
  · exact fun h => ⟨⟨k, .ok n⟩, mem_graph.2 (mem_of_lookup h), rfl, rfl⟩
  · rintro ⟨d, hd, rfl, hnode⟩
    exact lookup_of_mem hs.nodup_nil (hnode ▸ mem_graph.1 hd)

theorem direct_of_graph (hs : Grows [] s) (h : ∀ d ∈ s.graph.definitions, d.id.IsComponent) : s.Direct := by
  intro k hk
  rw [← graph_ids hs] at hk
  obtain ⟨d, hd, rfl⟩ := List.mem_map.1 hk
  exact h d hd

/-- The graph of a document whose definitions are component schemas is coherent. -/
theorem graph_coherent (hs : Grows [] s) (hgood : s.Good) (hdirect : s.Direct) : s.graph.Coherent := by
  have hplace {m : SchemaNode} (hm : s.graph.Inside m) :
      ∃ k n, s.Finished k n ∧ n.shape.Holds m ∧ SchemaId.Below k m.id := by
    obtain ⟨d, hd, node, hnode, hm⟩ := hm
    exact hgood.below_of_holds hdirect ((finished_iff hs).2 ⟨d, hd, rfl, hnode⟩) hm
  constructor
  case nodup => exact graph_nodup hs
  case targets =>
    rintro x y ⟨d, hd, rfl, node, hnode, hy⟩
    have hat := hgood hdirect ((finished_iff hs).2 ⟨d, hd, rfl, hnode⟩)
    rw [graph_ids hs]
    rw [SchemaNode.references_eq, mem_references_iff] at hy
    rcases hy with hy | ⟨m, hm, hy⟩
    · exact hat.shape.target hy
    · exact hat.shape.inside.targets hm hy
  case inline =>
    intro m hm
    obtain ⟨k, n, hk, -, hbelow⟩ := hplace hm
    rw [← Bool.not_eq_true, SchemaGraph.defines_iff, graph_ids hs]
    exact fun hmem => (hdirect.isComponent hk).not_of_below hbelow (hdirect _ hmem)
  case unique =>
    intro m m' hm hm' heq
    obtain ⟨k, n, hk, hholds, hbelow⟩ := hplace hm
    obtain ⟨k', n', hk', hholds', hbelow'⟩ := hplace hm'
    obtain rfl : k = k' := (hdirect.isComponent hk).eq_of_below (hdirect.isComponent hk') hbelow (heq ▸ hbelow')
    rw [Finished, hk] at hk'
    cases hk'
    exact (hgood hdirect hk).shape.inside.unique hholds hholds' hbelow heq

end Slots

/-- What holds of the pointers of the definitions holds of every definition. -/
theorem SchemaGraph.forall_of_pointers {g : SchemaGraph} {pointers : List String} {P : SchemaId → Prop}
    (h : g.definitions.map (·.id.pointer) = pointers) (hP : ∀ pointer ∈ pointers, P ⟨pointer⟩) :
    ∀ d ∈ g.definitions, P d.id := by
  intro d hd
  have hpointer : d.id.pointer ∈ pointers := h ▸ List.mem_map_of_mem hd
  exact hP d.id.pointer hpointer

namespace Generator

variable {g : Generator} {d : Document} {e : Extraction} {m : Model}

/-- The identity of a definition is lost once if the model leaves it out, and not at all if it generates it. -/
theorem count_lost (h : g.extraction d = .ok e) (hm : g.model e = .ok m) {definition : Definition}
    (hd : definition ∈ e.slots.graph.definitions) :
    (m.Generates definition.id →
      ((lost e.slots.graph g.target g.config).map (·.pointer)).count definition.id.pointer = 0) ∧
      (¬ m.Generates definition.id →
        ((lost e.slots.graph g.target g.config).map (·.pointer)).count definition.id.pointer = 1) := by
  have hids : (e.slots.graph.definitions.map (·.id)).Nodup := Slots.graph_nodup (extraction_spec h).2.1
  have hpointer : Function.Injective SchemaId.pointer := fun ⟨_⟩ ⟨_⟩ heq => congrArg _ heq
  rw [List.count_map_of_injective _ _ hpointer, model_eq hm,
    generates_iff hids e.operations (List.mem_map_of_mem hd)]
  exact ⟨List.count_eq_zero.2, fun hl => List.count_eq_one_of_mem (lost_nodup hids) (not_not.1 hl)⟩

/-- The errors of a model about a definition are as many as it is lost. -/
theorem errorsAbout_definition (h : g.extraction d = .ok e) (hm : g.model e = .ok m) {definition : Definition}
    (hd : definition ∈ e.slots.graph.definitions) : errorsAbout m.diagnostics definition.id.pointer =
      ((lost e.slots.graph g.target g.config).map (·.pointer)).count definition.id.pointer := by
  obtain ⟨bad, herrors, hperm⟩ := ofGraph_errors e.slots.graph g.target g.config e.operations
  have hbad : bad.count definition.id.pointer = 0 := by
    refine List.count_eq_zero.2 fun hbad => ?_
    have hsmall := extraction_smallLettered h _ (List.mem_append_left _ (hperm.mem_iff.1 (List.mem_append_right _ hbad)))
    exact hsmall.ne_of_hash (extraction_rooted h hd) rfl
  rw [model_eq hm, errorsAbout, herrors, List.count_append, hbad, Nat.add_zero, List.map_reverse, List.count_reverse]

/-- Where all definitions are component schemas, a model generates those that reach no broken one over references, as
one type each, and has one error about each other. Which it generates depends neither on the order of the definitions
nor on the operations. -/
theorem model_generates (h : g.extraction d = .ok e) (hm : g.model e = .ok m)
    (hdirect : ∀ definition ∈ e.slots.graph.definitions, definition.id.IsComponent) :
    (∀ definition ∈ e.slots.graph.definitions,
      (¬ e.slots.graph.ReachesBroken g.config definition.id →
        ∃! t, t ∈ m.types ∧ t.source = definition.id) ∧
      (e.slots.graph.ReachesBroken g.config definition.id →
        ¬ m.Generates definition.id ∧ errorsAbout m.diagnostics definition.id.pointer = 1)) ∧
      ∀ graph : SchemaGraph, e.slots.graph.definitions.Perm graph.definitions → ∀ operations : List Operation,
        ∀ definition ∈ graph.definitions,
          ((Model.ofGraph graph operations g.target g.config).Generates definition.id ↔ m.Generates definition.id) := by
  obtain ⟨ha, hs, -⟩ := extraction_spec h
  have hslots : e.slots.Direct := Slots.direct_of_graph hs hdirect
  have hg : e.slots.graph.Coherent := Slots.graph_coherent hs ha.good hslots
  refine ⟨fun definition hd => ?_, fun graph hperm operations definition hd => ?_⟩
  · have hmem : definition.id ∈ e.slots.graph.definitions.map (·.id) := List.mem_map_of_mem hd
    have hiff : m.Generates definition.id ↔ ¬ e.slots.graph.ReachesBroken g.config definition.id := by
      rw [model_eq hm]
      exact generates_iff_not_reachesBroken hg e.operations hmem
    refine ⟨fun hsound => ?_, fun hbroken => ?_⟩
    · obtain ⟨t, ht, hsource⟩ := hiff.2 hsound
      refine ⟨t, ⟨ht, hsource⟩, ?_⟩
      rintro t' ⟨ht', hsource'⟩
      rw [model_eq hm] at ht ht'
      have hdefines : e.slots.graph.defines t.source = true := hsource ▸ SchemaGraph.defines_iff.2 hmem
      exact eq_of_source hg.nodup e.operations ht ht' hdefines (hsource'.trans hsource.symm)
    · have hnot : ¬ m.Generates definition.id := fun hgen => hiff.1 hgen hbroken
      exact ⟨hnot, (errorsAbout_definition h hm hd).trans ((count_lost h hm hd).2 hnot)⟩
  · rw [model_eq hm]
    exact generates_perm hg hperm e.operations operations (List.mem_map_of_mem (hperm.mem_iff.2 hd))

/-- A document where a definition refers to a list of unknown items, and another one to itself. -/
def brokenDocument : Document :=
  ⟨⟨"", "", none⟩, .mapping [(.text "components", .mapping [(.text "schemas", .mapping [
    (.text "A", .mapping [(.text "properties", .mapping [
      (.text "b", .mapping [(.text "$ref", .text "#/components/schemas/B")])])]),
    (.text "B", .mapping [(.text "type", .text "array")]),
    (.text "C", .mapping [(.text "properties", .mapping [
      (.text "c", .mapping [(.text "$ref", .text "#/components/schemas/C")])])])])])]⟩

theorem model_generates_brokenDocument : ∃ e m, strict.extraction brokenDocument = .ok e ∧ strict.model e = .ok m ∧
    e.slots.graph.definitions.map (·.id.pointer) =
      ["#/components/schemas/A", "#/components/schemas/B", "#/components/schemas/C"] ∧
    (∀ definition ∈ e.slots.graph.definitions, definition.id.IsComponent) ∧
    m.types.map (·.source.pointer) = ["#/components/schemas/C"] ∧
    (∀ definition ∈ e.slots.graph.definitions,
      (¬ e.slots.graph.ReachesBroken strict.config definition.id →
        ∃! t, t ∈ m.types ∧ t.source = definition.id) ∧
      (e.slots.graph.ReachesBroken strict.config definition.id →
        ¬ m.Generates definition.id ∧ errorsAbout m.diagnostics definition.id.pointer = 1)) ∧
      ∀ graph : SchemaGraph, e.slots.graph.definitions.Perm graph.definitions → ∀ operations : List Operation,
        ∀ definition ∈ graph.definitions,
          ((Model.ofGraph graph operations strict.target strict.config).Generates definition.id ↔
            m.Generates definition.id) := by
  have hrun : (strict.extraction brokenDocument).toOption.bind (fun e => (strict.model e).toOption.map fun m =>
      (e.slots.graph.definitions.map (·.id.pointer), m.types.map (·.source.pointer))) =
        some (["#/components/schemas/A", "#/components/schemas/B", "#/components/schemas/C"],
          ["#/components/schemas/C"]) := by
    decide +kernel
  obtain ⟨e, he, hrun⟩ := Option.bind_eq_some_iff.1 hrun
  obtain ⟨m, hm, hrun⟩ := Option.map_eq_some_iff.1 hrun
  obtain ⟨hdefinitions, htypes⟩ := Prod.mk.inj hrun
  have he := ok_of_toOption he
  have hm := ok_of_toOption hm
  have hdirect : ∀ definition ∈ e.slots.graph.definitions, definition.id.IsComponent := by
    intro definition hd
    have hpointer : definition.id.pointer ∈ e.slots.graph.definitions.map (·.id.pointer) := List.mem_map_of_mem hd
    rw [hdefinitions] at hpointer
    simp only [List.mem_cons, List.not_mem_nil, or_false] at hpointer
    rcases hpointer with hp | hp | hp
    · exact ⟨['A'], by decide, by rw [hp]; rfl⟩
    · exact ⟨['B'], by decide, by rw [hp]; rfl⟩
    · exact ⟨['C'], by decide, by rw [hp]; rfl⟩
  exact ⟨e, m, he, hm, hdefinitions, hdirect, htypes, model_generates he hm hdirect⟩

end Generator

end ContractBindings
