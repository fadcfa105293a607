import ContractBindings.Proofs.Generation.Propagation
import ContractBindings.Proofs.Model.Finite

/-!
# Types of finite size

Where all definitions of a document are component schemas and no schema of an operation stands below one, no type of
the model stores itself over any number of others (`model_not_stores_self`): what closes a cycle is put in a box. A
schema of an operation that stands below a definition is a different matter: the definition may be merged into it, so it
may hold a node of its own identity, and the use of its own name inside it is not recursive (`looping_stores_self`).
-/

namespace ContractBindings.Generator

open SchemaId Lowering

/-- Where all definitions are component schemas and the schemas of operations do not stand below them, no type of the
model stores itself over any number of others. -/
theorem model_not_stores_self {g : Generator} {d : Document} {e : Extraction} {m : Model}
    (h : g.extraction d = .ok e) (hm : g.model e = .ok m)
    (hdirect : ∀ definition ∈ e.slots.graph.definitions, definition.id.IsComponent)
    (houtside : ∀ o ∈ e.operations, ∀ n ∈ o.schemas, ∀ definition ∈ e.slots.graph.definitions,
      ¬ Below definition.id n.id) (t : TypeDef) : ¬ Relation.TransGen m.Stores t t := by
  obtain ⟨ha, hs, -⟩ := extraction_spec h
  have hslots : e.slots.Direct := Slots.direct_of_graph hs hdirect
  rw [model_eq hm]
  refine ofGraph_not_stores_self (Slots.graph_coherent hs ha.good hslots) (fun o ho n hn hno => ?_) t
  -- a schema that stands for no definition and not below one is outside of all of them
  refine (ha.takes o ho n hn).unnests hslots fun k hk hwithin => ?_
  rw [← Slots.graph_ids hs] at hk
  rcases hwithin with rfl | hbelow
  · rw [SchemaGraph.defines_iff.2 hk] at hno
    cases hno
  · obtain ⟨definition, hd, rfl⟩ := List.mem_map.1 hk
    exact houtside o ho n hn definition hd hbelow

/-- A document where two definitions refer to each other, one of them inside a type of its own, and an operation refers
to both. -/
def mutualDocument : Document :=
  ⟨⟨"", "", none⟩, .mapping [
    (.text "paths", .mapping [(.text "/p", .mapping [(.text "get", .mapping [(.text "responses", .mapping [
      (.text "200", .mapping [(.text "content", .mapping [(.text "application/json", .mapping [
        (.text "schema", .mapping [(.text "properties", .mapping [
          (.text "a", .mapping [(.text "$ref", .text "#/components/schemas/A")]),
          (.text "b", .mapping [(.text "$ref", .text "#/components/schemas/B")])])])])])])])])])]),
    (.text "components", .mapping [(.text "schemas", .mapping [
      (.text "A", .mapping [(.text "properties", .mapping [
        (.text "b", .mapping [(.text "$ref", .text "#/components/schemas/B")])])]),
      (.text "B", .mapping [(.text "properties", .mapping [
        (.text "part", .mapping [(.text "properties", .mapping [
          (.text "a", .mapping [(.text "$ref", .text "#/components/schemas/A")])])])])])])])]⟩

theorem model_not_stores_self_mutualDocument : ∃ e m, strict.extraction mutualDocument = .ok e ∧
    strict.model e = .ok m ∧ (∀ definition ∈ e.slots.graph.definitions, definition.id.IsComponent) ∧
    (∀ o ∈ e.operations, ∀ n ∈ o.schemas, ∀ definition ∈ e.slots.graph.definitions, ¬ Below definition.id n.id) ∧
    m.types.map (fun t => (t.name, (Items.ofType t).flatMap Items.Item.stored)) =
      [("A", []), ("B", ["BPart"]), ("BPart", []), ("GetP200Response", ["A", "B"])] ∧
    ∀ t, ¬ Relation.TransGen m.Stores t t := by
  have hrun : (strict.extraction mutualDocument).toOption.bind (fun e => (strict.model e).toOption.map fun m =>
      (e.slots.graph.definitions.map (·.id.pointer), e.operations.flatMap (·.schemas.map (·.id.pointer)),
        m.types.map fun t => (t.name, (Items.ofType t).flatMap Items.Item.stored))) =
      some (["#/components/schemas/A", "#/components/schemas/B"],
        ["#/paths/~1p/get/responses/200/content/application~1json/schema"],
        [("A", []), ("B", ["BPart"]), ("BPart", []), ("GetP200Response", ["A", "B"])]) := by
    decide +kernel
  obtain ⟨e, he, hrun⟩ := Option.bind_eq_some_iff.1 hrun
  obtain ⟨m, hm, hrun⟩ := Option.map_eq_some_iff.1 hrun
  obtain ⟨hdefinitions, hrun⟩ := Prod.mk.inj hrun
  obtain ⟨hschemas, htypes⟩ := Prod.mk.inj hrun
  have he := ok_of_toOption he
  have hm := ok_of_toOption hm
  have hdirect : ∀ definition ∈ e.slots.graph.definitions, definition.id.IsComponent := by
    refine SchemaGraph.forall_of_pointers hdefinitions fun pointer hp => ?_
    simp only [List.mem_cons, List.not_mem_nil, or_false] at hp
    rcases hp with rfl | rfl
    · exact isComponent_child "A"
    · exact isComponent_child "B"
  have houtside : ∀ o ∈ e.operations, ∀ n ∈ o.schemas, ∀ definition ∈ e.slots.graph.definitions,
      ¬ Below definition.id n.id := by
    intro o ho n hn
    have hmem : n.id.pointer ∈ e.operations.flatMap (·.schemas.map (·.id.pointer)) :=
      List.mem_flatMap.2 ⟨o, ho, List.mem_map_of_mem hn⟩
    rw [hschemas, List.mem_singleton] at hmem
    refine SchemaGraph.forall_of_pointers (P := fun id => ¬ Below id n.id) hdefinitions fun pointer hp => ?_
    rintro ⟨rest, hrest⟩
    simp only [List.mem_cons, List.not_mem_nil, or_false] at hp
    rcases hp with rfl | rfl
    · simp [hmem] at hrest
    · simp [hmem] at hrest
  exact ⟨e, m, he, hm, hdirect, houtside, htypes, model_not_stores_self he hm hdirect houtside⟩

/-- The text of a contract where a response refers to the properties of a definition as if they were a response: the
schema in them merges the fields of the definition around it. -/
def loopingText : String :=
  "\x7b\"paths\":\x7b\"/p\":\x7b\"get\":\x7b\"responses\":"
    ++ "\x7b\"200\":\x7b\"$ref\":\"#/components/schemas/A/properties\"\x7d\x7d\x7d\x7d\x7d,"
    ++ "\"components\":\x7b\"schemas\":\x7b\"A\":\x7b\"additionalProperties\":\x7b\"type\":\"string\"\x7d,"
    ++ "\"properties\":\x7b\"content\":\x7b\"properties\":\x7b\"schema\":\x7b\"allOf\":"
    ++ "[\x7b\"$ref\":\"#/components/schemas/A\"\x7d,\x7b\"additionalProperties\":\x7b\x7d\x7d]\x7d\x7d\x7d\x7d\x7d\x7d\x7d\x7d"

/-- The only definition is a component schema, and two types of the model store each other. -/
theorem looping_stores_self : ∃ d e m, Document.load loopingText .json = .ok d ∧ strict.extraction d = .ok e ∧
    strict.model e = .ok m ∧ (∀ definition ∈ e.slots.graph.definitions, definition.id.IsComponent) ∧
    ∃ t, Relation.TransGen m.Stores t t := by
  have hrun : (Document.load loopingText .json).toOption.bind (fun d => (strict.extraction d).toOption.bind fun e =>
      (strict.model e).toOption.map fun m => (e.slots.graph.definitions.map (·.id.pointer),
        m.types.map fun t => (t.name, (Items.ofType t).flatMap Items.Item.stored))) =
      some (["#/components/schemas/A"],
        [("GetP200Response", ["GetP200ResponseContent"]), ("GetP200ResponseContent", ["GetP200Response"])]) := by
    decide +kernel
  obtain ⟨d, hd, hrun⟩ := Option.bind_eq_some_iff.1 hrun
  obtain ⟨e, he, hrun⟩ := Option.bind_eq_some_iff.1 hrun
  obtain ⟨m, hm, hrun⟩ := Option.map_eq_some_iff.1 hrun
  obtain ⟨hdefinitions, htypes⟩ := Prod.mk.inj hrun
  refine ⟨d, e, m, ok_of_toOption hd, ok_of_toOption he, ok_of_toOption hm, ?_, ?_⟩
  · refine SchemaGraph.forall_of_pointers hdefinitions fun pointer hp => ?_
    rw [List.mem_singleton.1 hp]
    exact isComponent_child "A"
  · have hfind {p : String × List String}
        (hp : p ∈ m.types.map fun t => (t.name, (Items.ofType t).flatMap Items.Item.stored)) :
        ∃ t ∈ m.types, t.name = p.1 ∧ (Items.ofType t).flatMap Items.Item.stored = p.2 := by
      obtain ⟨t, ht, rfl⟩ := List.mem_map.1 hp
      exact ⟨t, ht, rfl, rfl⟩
    rw [htypes] at hfind
    obtain ⟨t, ht, hname, hstored⟩ := hfind List.mem_cons_self
    obtain ⟨u, hu, hname', hstored'⟩ := hfind (List.mem_cons_of_mem _ List.mem_cons_self)
    have htu : m.Stores t u := ⟨ht, hu, by rw [hstored, hname']; exact List.mem_cons_self⟩
    have hut : m.Stores u t := ⟨hu, ht, by rw [hstored', hname]; exact List.mem_cons_self⟩
    exact ⟨t, .tail (.single htu) hut⟩

end ContractBindings.Generator
