import ContractBindings.Proofs.Generation.Stages
import ContractBindings.Proofs.Model.Generated

/-!
# Uses of types in the model of a document

Every use of a type in an operation names exactly one type of the model. A use in a type does, too, unless it names a
definition that was left out and whose node stands inside a definition that was not (`model_uses`): failures spread over
references alone, and such a node is used without one (`nested_leaves_use`).
-/

namespace ContractBindings.Generator

open Lowering

/-- The names that a model of a document uses: in operations those of one type each, in types those of one type each as
well, except for names of definitions that are left out and stand inside others that are not. -/
theorem model_uses {g : Generator} {d : Document} {e : Extraction} {m : Model} (h : g.extraction d = .ok e)
    (hm : g.model e = .ok m) :
    (∀ o ∈ m.operations, ∀ n ∈ o.uses, (m.types.map (·.name)).count n = 1) ∧
      ∀ t ∈ m.types, ∀ n ∈ t.uses,
        ((m.types.map (·.name)).count n = 1 ↔ ¬ LostInside e.slots.graph g.target m n) := by
  have hids : (e.slots.graph.definitions.map (·.id)).Nodup := Slots.graph_nodup (extraction_spec h).2.1
  rw [model_eq hm]
  have hcount {n : String}
      (hn : n ∈ (Model.ofGraph e.slots.graph e.operations g.target g.config).types.map (·.name)) :
      ((Model.ofGraph e.slots.graph e.operations g.target g.config).types.map (·.name)).count n = 1 :=
    List.count_eq_one_of_mem (types_nodup hids e.operations) hn
  refine ⟨fun o ho n hn => hcount ?_, fun t ht n hn => ⟨fun hone hlost => ?_, fun hno => hcount ?_⟩⟩
  · rw [ofGraph_eq] at ho ⊢
    exact (operations_sound hids e.operations).operations o ho n hn
  · obtain ⟨_, -, _, inner, -, -, -, hdefines, hleft, hname⟩ := hlost
    have hl : inner.id ∈ lost e.slots.graph g.target g.config := by
      by_contra hl
      exact hleft ((generates_iff hids e.operations (SchemaGraph.defines_iff.1 hdefines)).2 hl)
    have hnot := lost_name hids e.operations hname hl
    rw [← List.count_pos_iff] at hnot
    omega
  · exact (types_uses hids e.operations ht hn).resolve_right hno

/-- A document with an operation, and with a definition `A` that holds another one, an array without items. -/
def nestedDocument : Document :=
  ⟨⟨"", "", none⟩, .mapping [
    (.text "paths", .mapping [(.text "/c", .mapping [(.text "get", .mapping [(.text "responses", .mapping [
      (.text "200", .mapping [(.text "content", .mapping [(.text "application/json", .mapping [
        (.text "schema", .mapping [(.text "$ref", .text "#/components/schemas/C")])])])])])])])]),
    (.text "components", .mapping [(.text "schemas", .mapping [
      (.text "A", .mapping [(.text "properties", .mapping [(.text "x", .mapping [(.text "type", .text "array")])])]),
      (.text "B", .mapping [(.text "$ref", .text "#/components/schemas/A/properties/x")]),
      (.text "C", .mapping [(.text "properties", .mapping [
        (.text "a", .mapping [(.text "$ref", .text "#/components/schemas/A")])])])])])]⟩

theorem model_uses_nestedDocument : ∃ e m, strict.extraction nestedDocument = .ok e ∧ strict.model e = .ok m ∧
    m.types.map TypeDef.uses = [["X"], ["A"]] ∧ m.operations.map OperationDef.uses = [["C"]] ∧
      (∀ o ∈ m.operations, ∀ n ∈ o.uses, (m.types.map (·.name)).count n = 1) ∧
        ∀ t ∈ m.types, ∀ n ∈ t.uses,
          ((m.types.map (·.name)).count n = 1 ↔ ¬ LostInside e.slots.graph strict.target m n) := by
  have hrun : (strict.extraction nestedDocument).toOption.bind (fun e => (strict.model e).toOption.map fun m =>
      (m.types.map TypeDef.uses, m.operations.map OperationDef.uses)) = some ([["X"], ["A"]], [["C"]]) := by
    decide +kernel
  obtain ⟨e, he, hrun⟩ := Option.bind_eq_some_iff.1 hrun
  obtain ⟨m, hm, huses⟩ := Option.map_eq_some_iff.1 hrun
  have he := ok_of_toOption he
  have hm := ok_of_toOption hm
  exact ⟨e, m, he, hm, congrArg Prod.fst huses, congrArg Prod.snd huses, model_uses he hm⟩

/-- The text of a contract where a definition holds another one, an array without items. -/
def nestedText : String :=
  "\x7b\"components\":\x7b\"schemas\":\x7b\"A\":\x7b\"type\":\"object\",\"properties\":\x7b\"x\":\x7b\"type\":\"array\"\x7d\x7d\x7d,"
    ++ "\"B\":\x7b\"$ref\":\"#/components/schemas/A/properties/x\"\x7d\x7d\x7d\x7d"

/-- The definition `A` is kept and uses the name of the definition that it holds, which names no type. -/
theorem nested_leaves_use : ∃ d e m, Document.load nestedText .json = .ok d ∧ strict.extraction d = .ok e ∧
    strict.model e = .ok m ∧ ∃ t ∈ m.types, ∃ n ∈ t.uses, (m.types.map (·.name)).count n ≠ 1 := by
  have hrun : (Document.load nestedText .json).toOption.bind (fun d => (strict.extraction d).toOption.bind fun e =>
      (strict.model e).toOption.map fun m => m.types.map fun t => (t.name, t.uses)) = some [("A", ["X"])] := by
    decide +kernel
  obtain ⟨d, hd, hrun⟩ := Option.bind_eq_some_iff.1 hrun
  obtain ⟨e, he, hrun⟩ := Option.bind_eq_some_iff.1 hrun
  obtain ⟨m, hm, huses⟩ := Option.map_eq_some_iff.1 hrun
  refine ⟨d, e, m, ok_of_toOption hd, ok_of_toOption he, ok_of_toOption hm, ?_⟩
  obtain ⟨t, htypes, ht⟩ := List.map_eq_singleton_iff.1 huses
  obtain ⟨hname, hused⟩ := Prod.mk.inj ht
  refine ⟨t, by simp [htypes], "X", by simp [hused], ?_⟩
  rw [htypes, List.map_singleton, hname]
  decide

end ContractBindings.Generator
