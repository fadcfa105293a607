import ContractBindings.Proofs.Generation.Propagation
import ContractBindings.Proofs.Model.Coverage

/-!
# One type for one schema

A schema that operations share, or that an operation shares with a definition, becomes one type. The types of a model are
made of different schemas, unless two definitions make a type of the same one; where all definitions are component
schemas, exactly if no two of them do (`model_sources_nodup_iff`). Two definitions do so if one merges the other: what
stands in the fields taken over is made into types again (`merged_shares_source`).
-/

namespace ContractBindings.Generator

open SchemaId Lowering

/-- The types of a model are made of different schemas, if no two definitions of which types are generated make a type of
one schema; where all definitions are component schemas, only then. -/
theorem model_sources_nodup_iff {g : Generator} {d : Document} {e : Extraction} {m : Model}
    (h : g.extraction d = .ok e) (hm : g.model e = .ok m) :
    (e.slots.graph.Apart m.Generates → (m.types.map (·.source)).Nodup) ∧
      ((∀ definition ∈ e.slots.graph.definitions, definition.id.IsComponent) →
        ((m.types.map (·.source)).Nodup ↔ e.slots.graph.Apart m.Generates)) := by
  obtain ⟨ha, hs, -⟩ := extraction_spec h
  rw [model_eq hm]
  refine ⟨ofGraph_sources_nodup (Slots.graph_nodup hs) e.operations, fun hdirect => ?_⟩
  have hslots : e.slots.Direct := Slots.direct_of_graph hs hdirect
  exact ofGraph_sources_nodup_iff (Slots.graph_coherent hs ha.good hslots) e.operations

/-- A document with a parameter that two operations share, and with a definition that holds an object. -/
def sharingDocument : Document :=
  ⟨⟨"", "", none⟩, .mapping [
    (.text "paths", .mapping [(.text "/p", .mapping [
      (.text "parameters", .sequence [.mapping [(.text "name", .text "state"), (.text "in", .text "query"),
        (.text "schema", .mapping [(.text "enum", .sequence [.text "on", .text "off"])])]]),
      (.text "get", .mapping [(.text "responses", .mapping [
        (.text "200", .mapping [(.text "content", .mapping [(.text "application/json", .mapping [
          (.text "schema", .mapping [(.text "$ref", .text "#/components/schemas/A")])])])])])]),
      (.text "put", .mapping [(.text "responses", .mapping [(.text "204", .mapping [])])])])]),
    (.text "components", .mapping [(.text "schemas", .mapping [
      (.text "A", .mapping [(.text "properties", .mapping [
        (.text "x", .mapping [(.text "properties", .mapping [])])])])])])]⟩

/-- The definitions, the types with their sources and the types that the operations use. -/
def sharingRun : standard.Run sharingDocument fun e m =>
    (e.slots.graph.definitions.map (·.id.pointer), m.types.map (fun t => (t.name, t.source.pointer)),
      m.operations.map OperationDef.uses) where
  seen := (["#/components/schemas/A"],
    [("A", "#/components/schemas/A"), ("AX", "#/components/schemas/A/properties/x"),
      ("GetPState", "#/paths/~1p/parameters/0/schema")], [["GetPState", "A"], ["GetPState"]])
  seen_eq := by decide +kernel

theorem model_sources_nodup_iff_sharingDocument : ∃ e m, standard.extraction sharingDocument = .ok e ∧
    standard.model e = .ok m ∧ m.types.map (fun t => (t.name, t.source.pointer)) =
      [("A", "#/components/schemas/A"), ("AX", "#/components/schemas/A/properties/x"),
        ("GetPState", "#/paths/~1p/parameters/0/schema")] ∧
    m.operations.map OperationDef.uses = [["GetPState", "A"], ["GetPState"]] ∧
    (e.slots.graph.Apart m.Generates → (m.types.map (·.source)).Nodup) ∧
      ((m.types.map (·.source)).Nodup ↔ e.slots.graph.Apart m.Generates) := by
  obtain ⟨e, m, he, hm, hseen⟩ := sharingRun.spec
  obtain ⟨hdefinitions, hseen⟩ := Prod.mk.inj hseen
  obtain ⟨htypes, huses⟩ := Prod.mk.inj hseen
  have hdirect : ∀ definition ∈ e.slots.graph.definitions, definition.id.IsComponent := by
    refine SchemaGraph.forall_of_pointers hdefinitions fun pointer hp => ?_
    rw [List.mem_singleton.1 hp]
    exact isComponent_child "A"
  obtain ⟨hapart, hiff⟩ := model_sources_nodup_iff he hm
  exact ⟨e, m, he, hm, htypes, huses, hapart, hiff hdirect⟩

/-- The text of a contract where a definition merges another one, with a field that holds an object. -/
def mergedText : String :=
  "\x7b\"components\":\x7b\"schemas\":\x7b"
    ++ "\"A\":\x7b\"properties\":\x7b\"x\":\x7b\"properties\":\x7b\x7d\x7d\x7d\x7d,"
    ++ "\"B\":\x7b\"allOf\":[\x7b\"$ref\":\"#/components/schemas/A\"\x7d]\x7d\x7d\x7d\x7d"

/-- The object in the field is made into two types. -/
theorem merged_shares_source : ∃ d e m, Document.load mergedText .json = .ok d ∧ standard.extraction d = .ok e ∧
    standard.model e = .ok m ∧ ∃ t ∈ m.types, ∃ t' ∈ m.types, t.name ≠ t'.name ∧ t.source = t'.source := by
  have hrun : (Document.load mergedText .json).toOption.bind (fun d => (standard.extraction d).toOption.bind fun e =>
      (standard.model e).toOption.map fun m => m.types.map fun t => (t.name, t.source)) =
      some [("A", ⟨"#/components/schemas/A"⟩), ("AX", ⟨"#/components/schemas/A/properties/x"⟩),
        ("B", ⟨"#/components/schemas/B"⟩), ("BX", ⟨"#/components/schemas/A/properties/x"⟩)] := by
    decide +kernel
  obtain ⟨d, hd, hrun⟩ := Option.bind_eq_some_iff.1 hrun
  obtain ⟨e, he, hrun⟩ := Option.bind_eq_some_iff.1 hrun
  obtain ⟨m, hm, htypes⟩ := Option.map_eq_some_iff.1 hrun
  have hfind {p : String × SchemaId} (hp : p ∈ m.types.map fun t => (t.name, t.source)) :
      ∃ t ∈ m.types, t.name = p.1 ∧ t.source = p.2 := by
    obtain ⟨t, ht, rfl⟩ := List.mem_map.1 hp
    exact ⟨t, ht, rfl, rfl⟩
  rw [htypes] at hfind
  obtain ⟨t, ht, hname, hsource⟩ := hfind (p := ("AX", ⟨"#/components/schemas/A/properties/x"⟩)) (by simp)
  obtain ⟨t', ht', hname', hsource'⟩ := hfind (p := ("BX", ⟨"#/components/schemas/A/properties/x"⟩)) (by simp)
  refine ⟨d, e, m, ok_of_toOption hd, ok_of_toOption he, ok_of_toOption hm, t, ht, t', ht', ?_, ?_⟩
  · rw [hname, hname']
    decide
  · rw [hsource, hsource']

end ContractBindings.Generator
