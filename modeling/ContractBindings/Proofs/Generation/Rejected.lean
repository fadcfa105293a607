import ContractBindings.Proofs.Generation.Stages
import ContractBindings.Proofs.Model.Rejected

/-!
# Generation without the rejected operations

What a rejected operation leaves behind is that the names it was given are taken. So the model is the one that the other
operations alone would have, but for names, and that very model exactly if these are none of them
(`Model.ofGraph_accepted`).
-/

namespace ContractBindings

open Naming Lowering

/-- Without the rejected operations a model has types of the same schemas and operations of the same headers. It has the
same types and operations exactly if the names in it are none that were given to rejected operations. -/
theorem Model.ofGraph_accepted (g : SchemaGraph) (operations : List Operation) (target : Target) (config : Config) :
    let others := accepted (operationContext g target config) (assembled g target config) operations
    let gone := forsaken (operationContext g target config) (assembled g target config) operations
    let m := Model.ofGraph g operations target config
    let m' := Model.ofGraph g others target config
    (others.Sublist operations ∧ m.operations.map OperationDef.header = others.map Operation.header) ∧
    (m.types.map (fun t => (t.source, t.doc)) = m'.types.map (fun t => (t.source, t.doc)) ∧
      m.operations.map OperationDef.header = m'.operations.map OperationDef.header) ∧
    (m.types = m'.types ∧ m.operations = m'.operations ↔ ∀ name ∈ m'.names, snakeCase name ∉ gone) := by
  intro others gone m m'
  obtain ⟨hsub, hheaders⟩ := accepted_spec (operationContext g target config) operations (assembled g target config)
  have hoperations : (assembled g target config).model.operations = [] := (foldl_commit (kept g target config) _).2.2.1
  rw [hoperations, List.map_nil, List.nil_append] at hheaders
  have hbeside := Assembly.Beside.refl (assembled g target config)
  obtain ⟨halike, hnone⟩ := lowerOperations_alike (operationContext g target config) operations hbeside.alike
  refine ⟨⟨hsub, hheaders⟩, ⟨halike.types, halike.operations⟩, ?_⟩
  constructor
  · rintro ⟨htypes, hops⟩ name hname
    have hname : name ∈ m.names := by rwa [Model.names, htypes, hops]
    exact not_forsaken _ operations _ (fun n hn => taken_of_mem_names hn) name hname
  · intro hfree
    -- what is taken without the rejected operations was taken before all of them or is a name of the model then
    have h := lowerOperations_beside (operationContext g target config) operations hbeside fun form hform => by
      rw [List.nil_append]
      rcases taken_lowerOperations _ _ _ form hform with hform | hform | hform
      · exact not_mem_forsaken _ operations _ hform
      · obtain ⟨name, hname, rfl⟩ := List.mem_map.1 hform
        exact hfree name hname
      · rw [hnone] at hform
        cases hform
    exact ⟨h.types, h.operations⟩

namespace Generator

/-- A document where an operation is rejected after a type with a title was made for it, and a later operation has a schema
of the same title. -/
def rejectedDocument : Document :=
  ⟨⟨"", "", none⟩, .mapping [
    (.text "paths", .mapping [
      (.text "/a", .mapping [(.text "get", .mapping [(.text "responses", .mapping [
        (.text "200", .mapping [(.text "content", .mapping [(.text "application/json", .mapping [
          (.text "schema", .mapping [(.text "title", .text "T"), (.text "properties", .mapping [])])])])]),
        (.text "201", .mapping [(.text "content", .mapping [(.text "application/json", .mapping [
          (.text "schema", .mapping [])])])])])])]),
      (.text "/b", .mapping [(.text "get", .mapping [(.text "responses", .mapping [
        (.text "200", .mapping [(.text "content", .mapping [(.text "application/json", .mapping [
          (.text "schema", .mapping [(.text "title", .text "T"), (.text "properties", .mapping [])])])])])])])])])]⟩

/-- The names of the types, with all operations and without those that the model has not. -/
def rejectedRun : standard.Run rejectedDocument fun e m =>
    let others := e.operations.filter fun o => (m.operations.map (·.id)).contains o.id
    (e.operations.map (·.id), others.map (·.id), m.types.map (·.name),
      (Model.ofGraph e.slots.graph others .rust {}).types.map (·.name)) where
  seen := (["get_a", "get_b"], ["get_b"], ["T_2"], ["T"])
  seen_eq := by decide +kernel

/-- The type of the later operation has another name than without the rejected one. -/
theorem rejected_takes_name : ∃ e m, standard.extraction rejectedDocument = .ok e ∧ standard.model e = .ok m ∧
    let others := e.operations.filter fun o => (m.operations.map (·.id)).contains o.id
    e.operations.map (·.id) = ["get_a", "get_b"] ∧ others.map (·.id) = ["get_b"] ∧ m.types.map (·.name) = ["T_2"] ∧
      (Model.ofGraph e.slots.graph others .rust {}).types.map (·.name) = ["T"] := by
  obtain ⟨e, m, he, hm, hseen⟩ := rejectedRun.spec
  obtain ⟨hids, hseen⟩ := Prod.mk.inj hseen
  obtain ⟨hothers, hseen⟩ := Prod.mk.inj hseen
  obtain ⟨hnames, hnames'⟩ := Prod.mk.inj hseen
  exact ⟨e, m, he, hm, hids, hothers, hnames, hnames'⟩

end Generator

end ContractBindings
