import ContractBindings.Proofs.Generation.Stages
import ContractBindings.Proofs.Model.Outline

/-!
# What is generated, for any target

What of a document becomes types and operations, and what is in error, does not depend on the target, nor on how unions
and responses without a body are treated (`ofGraph_outline`).
-/

namespace ContractBindings.Generator

open Lowering

/-- The types of a model are made of the same schemas, its operations are the same and its errors are the same, whatever
the target is and however it treats unions and responses without a body. -/
theorem ofGraph_outline (g : SchemaGraph) (operations : List Operation) (target target' : Target)
    {config config' : Config} (hpayloads : config.unknownPayloads = config'.unknownPayloads)
    (hfields : config.unknownFields = config'.unknownFields) :
    (Model.ofGraph g operations target config).types.map (fun t => (t.source, t.doc)) =
        (Model.ofGraph g operations target' config').types.map (fun t => (t.source, t.doc)) ∧
      (Model.ofGraph g operations target config).operations.map OperationDef.header =
        (Model.ofGraph g operations target' config').operations.map OperationDef.header ∧
      (Model.ofGraph g operations target config).diagnostics.filter Diagnostic.isError =
        (Model.ofGraph g operations target' config').diagnostics.filter Diagnostic.isError := by
  have hagrees : (operationContext g target config).Agrees (operationContext g target' config') :=
    { context_agrees g target target' hpayloads hfields with
      failed := congrArg (·.1) (spreaded_eq g target target' hpayloads hfields) }
  have h := lowerOperations_outline hagrees operations (assembled_outline g target target' hpayloads hfields)
  simp only [Assembly.outline, Prod.mk.injEq] at h
  exact h.2

/-- A document with a union that not every target can hold, a container in a container, a response without a body, and
an array and an operation in error. -/
def mixedDocument : Document :=
  ⟨⟨"", "", none⟩, .mapping [
    (.text "paths", .mapping [
      (.text "/p", .mapping [(.text "get", .mapping [(.text "responses", .mapping [
        (.text "200", .mapping [(.text "content", .mapping [(.text "application/json", .mapping [
          (.text "schema", .mapping [(.text "$ref", .text "#/components/schemas/U")])])])]),
        (.text "204", .mapping [])])])]),
      (.text "/q", .mapping [(.text "get", .mapping [(.text "responses", .mapping [
        (.text "200", .mapping [(.text "content", .mapping [(.text "application/json", .mapping [
          (.text "schema", .mapping [(.text "$ref", .text "#/components/schemas/Bad")])])])])])])])]),
    (.text "components", .mapping [(.text "schemas", .mapping [
      (.text "U", .mapping [(.text "oneOf", .sequence [
        .mapping [(.text "properties", .mapping [(.text "grid", .mapping [
          (.text "type", .text "array"), (.text "items", .mapping [
            (.text "type", .text "array"), (.text "items", .mapping [(.text "type", .text "string")])])])])],
        .mapping [(.text "type", .text "array"), (.text "items", .mapping [(.text "type", .text "string")])]])]),
      (.text "Bad", .mapping [(.text "type", .text "array")])])])]⟩

/-- The choices under which a union is opaque and a response without a body is left out. -/
def cautious : Config := { unionPolicy := .fallback, emptyResponses := .omit, unknownFields := .reject }

theorem ofGraph_outline_mixedDocument : ∃ e, strict.extraction mixedDocument = .ok e ∧
    strict.config.unknownPayloads = cautious.unknownPayloads ∧ strict.config.unknownFields = cautious.unknownFields ∧
    ∃ m m', m = Model.ofGraph e.slots.graph e.operations .rust strict.config ∧
      m' = Model.ofGraph e.slots.graph e.operations .protobuf cautious ∧
      m.types.map (fun t => (t.name, t.body.descriptors.length)) = [("U", 2), ("UVariant1", 1)] ∧
      m'.types.map (fun t => (t.name, t.body.descriptors.length)) = [("U", 0), ("UVariant1", 1)] ∧
      m.operations.map (fun o => (o.request, o.responses.length)) = [("GetPParams", 2)] ∧
      m'.operations.map (fun o => (o.request, o.responses.length)) = [("GetPRequest", 1)] ∧
      (m.diagnostics.filter Diagnostic.isError).map (·.unit) = ["#/components/schemas/Bad", "get_q"] ∧
      m.types.map (fun t => (t.source, t.doc)) = m'.types.map (fun t => (t.source, t.doc)) ∧
      m.operations.map OperationDef.header = m'.operations.map OperationDef.header ∧
      m.diagnostics.filter Diagnostic.isError = m'.diagnostics.filter Diagnostic.isError := by
  have hrun : (strict.extraction mixedDocument).toOption.map (fun e =>
      let m := Model.ofGraph e.slots.graph e.operations .rust strict.config
      let m' := Model.ofGraph e.slots.graph e.operations .protobuf cautious
      ([m, m'].map fun m => m.types.map fun t => (t.name, t.body.descriptors.length),
        [m, m'].map fun m => m.operations.map fun o => (o.request, o.responses.length),
        (m.diagnostics.filter Diagnostic.isError).map (·.unit))) =
      some ([[("U", 2), ("UVariant1", 1)], [("U", 0), ("UVariant1", 1)]], [[("GetPParams", 2)], [("GetPRequest", 1)]],
        ["#/components/schemas/Bad", "get_q"]) := by
    decide +kernel
  obtain ⟨e, he, hrun⟩ := Option.map_eq_some_iff.1 hrun
  simp only [Prod.mk.injEq, List.map_cons, List.map_nil, List.cons.injEq, and_true] at hrun
  obtain ⟨⟨htypes, htypes'⟩, ⟨hoperations, hoperations'⟩, herrors⟩ := hrun
  exact ⟨e, ok_of_toOption he, rfl, rfl, _, _, rfl, rfl, htypes, htypes', hoperations, hoperations', herrors,
    ofGraph_outline e.slots.graph e.operations .rust .protobuf rfl rfl⟩

end ContractBindings.Generator
