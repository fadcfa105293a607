import ContractBindings.Proofs.Generation.Stages
import ContractBindings.Proofs.Messages.Cycles
import ContractBindings.Proofs.Messages.Imports
import ContractBindings.Proofs.Model.Generated

/-!
# Imports of the units of a model

The units of a model for protobuf import every file that they need, with one exception: the unit of a union that is kept
as an opaque value mentions any value and imports nothing (`ofGraph_imports`). So the file for any value is missing
there, though every other unit that mentions it has it (`fallback_lacks_import`).

No unit of a model for protobuf imports itself, and units of operations are imported by none. Units of types import each
other in a circle exactly if two different types use each other (`model_imports_acyclic_iff`). That is so where
definitions refer to each other, or where a type inside a definition refers back to it; a type that only uses itself is
in no circle. So the units for two objects that hold each other are in one (`mutual_imports`).
-/

namespace ContractBindings.Generator

open Messages

/-- The generator of protobuf units, with the default choices. -/
def messages : Generator := ⟨.protobuf, {}, none⟩

/-- The generator of protobuf units that keeps unions as opaque values. -/
def opaqueUnions : Generator := ⟨.protobuf, { unionPolicy := .fallback }, none⟩

/-- In a model for protobuf, a unit imports a file that it needs exactly if it is no unit of a union that is kept as an
opaque value; the units of types import nothing else. -/
theorem ofGraph_imports (g : SchemaGraph) (operations : List Operation) (config : Config) :
    (∀ t ∈ (Model.ofGraph g operations .protobuf config).types, ∃ files,
      UnitParts.ofType t .protobuf = .ok ⟨importText files, docText t.doc, (Declaration.ofType t).text⟩ ∧
        (∀ file ∈ files, (Declaration.ofType t).Needs file) ∧
          ∀ file, (Declaration.ofType t).Needs file →
            (file ∈ files ↔ ∀ alternatives, t.body ≠ .fallback alternatives)) ∧
      ∀ o ∈ (Model.ofGraph g operations .protobuf config).operations, ∃ files doc,
        UnitParts.ofOperation o .protobuf = .ok ⟨importText files, doc, (Declaration.ofOperation o).text⟩ ∧
          ∀ file, (Declaration.ofOperation o).Needs file → file ∈ files := by
  have hnest : Target.protobuf.capability.nestedContainers = false := rfl
  have hbranch : Target.protobuf.capability.containerBranches = false := rfl
  obtain ⟨htypes, hoperations⟩ := Lowering.ofGraph_flat hnest hbranch g operations config
  constructor
  · intro t ht
    refine ⟨_, rfl, ?_⟩
    by_cases hf : ∀ alternatives, t.body ≠ .fallback alternatives
    · have hiff := importedFiles_type (htypes t ht) hf
      exact ⟨fun file => (hiff file).1, fun file hneeds => iff_of_true ((hiff file).2 hneeds) hf⟩
    · obtain ⟨alternatives, hbody⟩ := not_forall_not.1 hf
      rw [importedFiles_fallback hbody]
      exact ⟨nofun, fun file _ => iff_of_false (List.not_mem_nil) hf⟩
  · exact fun o ho => ⟨_, _, rfl, fun file => importedFiles_operation (hoperations o ho)⟩

/-- A document with a union, an object of every kind of field, and an operation without a response body. -/
def importingDocument : Document :=
  ⟨⟨"", "", none⟩, .mapping [
    (.text "paths", .mapping [(.text "/p", .mapping [(.text "get", .mapping [(.text "responses", .mapping [
      (.text "200", .mapping [(.text "content", .mapping [(.text "application/json", .mapping [
        (.text "schema", .mapping [(.text "$ref", .text "#/components/schemas/A")])])])]),
      (.text "204", .mapping [])])])])]),
    (.text "components", .mapping [(.text "schemas", .mapping [
      (.text "A", .mapping [(.text "properties", .mapping [
        (.text "at", .mapping [(.text "type", .text "string"), (.text "format", .text "date-time")]),
        (.text "grid", .mapping [(.text "type", .text "array"), (.text "items", .mapping [
          (.text "type", .text "array"), (.text "items", .mapping [(.text "type", .text "string")])])]),
        (.text "next", .mapping [(.text "$ref", .text "#/components/schemas/A")]),
        (.text "unit", .mapping [(.text "$ref", .text "#/components/schemas/U")])])]),
      (.text "U", .mapping [(.text "oneOf", .sequence [
        .mapping [(.text "$ref", .text "#/components/schemas/A")],
        .mapping [(.text "type", .text "integer")]])])])])]⟩

theorem ofGraph_imports_importingDocument : ∃ e, messages.extraction importingDocument = .ok e ∧
    (Model.ofGraph e.slots.graph e.operations .protobuf messages.config).types.map
        (fun t => (t.name, importedFiles t.name (descriptorsOfType t))) =
      [("A", ["google/protobuf/struct.proto", "google/protobuf/timestamp.proto", "models/u.proto"]),
        ("U", ["models/a.proto"])] ∧
    (Model.ofGraph e.slots.graph e.operations .protobuf messages.config).operations.map
        (fun o => importedFiles o.request (descriptorsOfOperation o)) =
      [["google/protobuf/empty.proto", "models/a.proto"]] ∧
    (∀ t ∈ (Model.ofGraph e.slots.graph e.operations .protobuf messages.config).types, ∃ files,
      UnitParts.ofType t .protobuf = .ok ⟨importText files, docText t.doc, (Declaration.ofType t).text⟩ ∧
        (∀ file ∈ files, (Declaration.ofType t).Needs file) ∧
          ∀ file, (Declaration.ofType t).Needs file →
            (file ∈ files ↔ ∀ alternatives, t.body ≠ .fallback alternatives)) ∧
    ∀ o ∈ (Model.ofGraph e.slots.graph e.operations .protobuf messages.config).operations, ∃ files doc,
      UnitParts.ofOperation o .protobuf = .ok ⟨importText files, doc, (Declaration.ofOperation o).text⟩ ∧
        ∀ file, (Declaration.ofOperation o).Needs file → file ∈ files := by
  have hrun : (messages.extraction importingDocument).toOption.map (fun e =>
      ((Model.ofGraph e.slots.graph e.operations .protobuf messages.config).types.map
          (fun t => (t.name, importedFiles t.name (descriptorsOfType t))),
        (Model.ofGraph e.slots.graph e.operations .protobuf messages.config).operations.map
          (fun o => importedFiles o.request (descriptorsOfOperation o)))) =
      some ([("A", ["google/protobuf/struct.proto", "google/protobuf/timestamp.proto", "models/u.proto"]),
        ("U", ["models/a.proto"])], [["google/protobuf/empty.proto", "models/a.proto"]]) := by
    decide +kernel
  obtain ⟨e, he, hrun⟩ := Option.map_eq_some_iff.1 hrun
  obtain ⟨htypes, hoperations⟩ := Prod.mk.inj hrun
  exact ⟨e, ok_of_toOption he, htypes, hoperations, ofGraph_imports e.slots.graph e.operations messages.config⟩

/-- The text of a contract with a union of two scalars. -/
def unionText : String :=
  "\x7b\"components\":\x7b\"schemas\":\x7b\"U\":"
    ++ "\x7b\"oneOf\":[\x7b\"type\":\"string\"\x7d,\x7b\"type\":\"integer\"\x7d]\x7d\x7d\x7d\x7d"

/-- The unit of a union that is kept as an opaque value needs the file for any value, and imports nothing. -/
theorem fallback_lacks_import : ∃ d e m, Document.load unionText .json = .ok d ∧
    opaqueUnions.extraction d = .ok e ∧ opaqueUnions.model e = .ok m ∧
    ∃ t ∈ m.types, (Declaration.ofType t).Needs "google/protobuf/struct.proto" ∧
      ∃ doc, UnitParts.ofType t .protobuf = .ok ⟨"", doc, (Declaration.ofType t).text⟩ := by
  have hrun : (Document.load unionText .json).toOption.bind (fun d =>
      (opaqueUnions.extraction d).toOption.bind fun e => (opaqueUnions.model e).toOption.bind fun m =>
        m.types.head?.map fun t => ((Declaration.ofType t).mentions, importedFiles t.name (descriptorsOfType t))) =
      some ([.anything], []) := by
    decide +kernel
  obtain ⟨d, hd, hrun⟩ := Option.bind_eq_some_iff.1 hrun
  obtain ⟨e, he, hrun⟩ := Option.bind_eq_some_iff.1 hrun
  obtain ⟨m, hm, hrun⟩ := Option.bind_eq_some_iff.1 hrun
  obtain ⟨t, ht, hrun⟩ := Option.map_eq_some_iff.1 hrun
  obtain ⟨hmentions, hfiles⟩ := Prod.mk.inj hrun
  refine ⟨d, e, m, ok_of_toOption hd, ok_of_toOption he, ok_of_toOption hm, t, List.mem_of_head? ht, ?_, docText t.doc, ?_⟩
  · exact ⟨.anything, by simp [hmentions], by simp, rfl⟩
  · simp only [UnitParts.ofType, hfiles]
    rfl

/-! ## Circles of imports -/

open Lowering Naming

theorem ofGraph_told {g : SchemaGraph} {target : Target} {config : Config} (hids : (g.definitions.map (·.id)).Nodup)
    (operations : List Operation) : (Model.ofGraph g operations target config).Told where
  forms := types_forms_nodup hids operations
  uses := by
    intro t ht n hn u hu hform
    rcases types_uses hids operations ht hn with hname | ⟨_, -, _, inner, -, -, -, -, hleft, hname⟩
    · obtain ⟨t', ht', rfl⟩ := List.mem_map.1 hname
      rw [List.inj_on_of_nodup_map (types_forms_nodup hids operations) ht' hu hform]
    · -- the definition of that name is left out, so the type with its form is none
      exact absurd ⟨u, hu, source_of_form hids operations hname hu hform⟩ hleft

/-- No unit of a model imports itself, and the imports of its units go in no circle exactly if no two of its types use
each other, over any number of types. -/
theorem model_imports_acyclic_iff {g : Generator} {d : Document} {e : Extraction} {m : Model}
    (h : g.extraction d = .ok e) (hm : g.model e = .ok m) :
    (∀ file, ¬ Imports m file file) ∧ ((∀ file, ¬ Relation.TransGen (Imports m) file file) ↔
      ∀ t u, Relation.TransGen m.Uses t u → Relation.TransGen m.Uses u t → t = u) := by
  have hids : (e.slots.graph.definitions.map (·.id)).Nodup := Slots.graph_nodup (extraction_spec h).2.1
  rw [model_eq hm]
  have htold : (Model.ofGraph e.slots.graph e.operations g.target g.config).Told := ofGraph_told hids e.operations
  exact ⟨htold.not_imports_self, htold.imports_acyclic_iff⟩

/-- A document with an object that holds itself and another one, and with an operation. -/
def treeDocument : Document :=
  ⟨⟨"", "", none⟩, .mapping [
    (.text "paths", .mapping [(.text "/p", .mapping [(.text "get", .mapping [(.text "responses", .mapping [
      (.text "200", .mapping [(.text "content", .mapping [(.text "application/json", .mapping [
        (.text "schema", .mapping [(.text "$ref", .text "#/components/schemas/Node")])])])])])])])]),
    (.text "components", .mapping [(.text "schemas", .mapping [
      (.text "Node", .mapping [(.text "properties", .mapping [
        (.text "label", .mapping [(.text "$ref", .text "#/components/schemas/Label")]),
        (.text "next", .mapping [(.text "$ref", .text "#/components/schemas/Node")])])]),
      (.text "Label", .mapping [(.text "properties", .mapping [])])])])]⟩

/-- What the types and the operations use. -/
def treeRun : messages.Run treeDocument fun _ m =>
    (m.types.map (fun t => (t.name, t.uses)), m.operations.map OperationDef.uses) where
  seen := ([("Node", ["Label", "Node"]), ("Label", [])], [["Node"]])
  seen_eq := by decide +kernel

theorem model_imports_acyclic_iff_treeDocument : ∃ e m, messages.extraction treeDocument = .ok e ∧
    messages.model e = .ok m ∧ m.types.map (fun t => (t.name, t.uses)) = [("Node", ["Label", "Node"]), ("Label", [])] ∧
    m.operations.map OperationDef.uses = [["Node"]] ∧ ∀ file, ¬ Relation.TransGen (Imports m) file file := by
  obtain ⟨e, m, he, hm, hseen⟩ := treeRun.spec
  obtain ⟨htypes, hoperations⟩ := Prod.mk.inj hseen
  have hfirst : ∀ t ∈ m.types, t.uses ≠ [] → m.types.head? = some t := by
    intro t ht huses
    obtain ⟨u, us, hcons, hu, hus⟩ := List.map_eq_cons_iff.1 htypes
    obtain ⟨v, hv, hlabel⟩ := List.map_eq_singleton_iff.1 hus
    subst hv
    rw [hcons, List.mem_cons, List.mem_singleton] at ht
    rcases ht with rfl | rfl
    · rw [hcons, List.head?_cons]
    · exact absurd (Prod.mk.inj hlabel).2 huses
  have hstart {t u : TypeDef} (hway : Relation.TransGen m.Uses t u) : m.types.head? = some t := by
    obtain ⟨v, ⟨ht, -, hv⟩, -⟩ := Relation.TransGen.head'_iff.1 hway
    exact hfirst t ht (List.ne_nil_of_mem hv)
  refine ⟨e, m, he, hm, htypes, hoperations, (model_imports_acyclic_iff he hm).2.2 fun t u htu hut => ?_⟩
  exact Option.some.inj ((hstart htu).symm.trans (hstart hut))

/-- The text of a contract with two objects that hold each other. -/
def mutualText : String :=
  "\x7b\"components\":\x7b\"schemas\":\x7b"
    ++ "\"A\":\x7b\"properties\":\x7b\"b\":\x7b\"$ref\":\"#/components/schemas/B\"\x7d\x7d\x7d,"
    ++ "\"B\":\x7b\"properties\":\x7b\"a\":\x7b\"$ref\":\"#/components/schemas/A\"\x7d\x7d\x7d\x7d\x7d\x7d"

/-- The units of the two objects import each other. -/
theorem mutual_imports : ∃ d e m, Document.load mutualText .json = .ok d ∧ messages.extraction d = .ok e ∧
    messages.model e = .ok m ∧ ∃ file, Relation.TransGen (Imports m) file file := by
  have hrun : (Document.load mutualText .json).toOption.bind (fun d => (messages.extraction d).toOption.bind fun e =>
      (messages.model e).toOption.map fun m =>
        m.types.map fun t => (t.name, importedFiles t.name (descriptorsOfType t))) =
      some [("A", ["models/b.proto"]), ("B", ["models/a.proto"])] := by
    decide +kernel
  obtain ⟨d, hd, hrun⟩ := Option.bind_eq_some_iff.1 hrun
  obtain ⟨e, he, hrun⟩ := Option.bind_eq_some_iff.1 hrun
  obtain ⟨m, hm, hfiles⟩ := Option.map_eq_some_iff.1 hrun
  refine ⟨d, e, m, ok_of_toOption hd, ok_of_toOption he, ok_of_toOption hm, "models/a.proto", ?_⟩
  have hstep {p : String × List String}
      (hp : p ∈ m.types.map fun t => (t.name, importedFiles t.name (descriptorsOfType t))) :
      ∀ file ∈ p.2, Imports m (UnitKind.model.path p.1 .protobuf) file := by
    obtain ⟨t, ht, rfl⟩ := List.mem_map.1 hp
    exact fun file hfile => imports_iff.2 (.inl ⟨t, ht, rfl, hfile⟩)
  rw [hfiles] at hstep
  have hA : UnitKind.model.path "A" .protobuf = "models/a.proto" := by decide
  have hB : UnitKind.model.path "B" .protobuf = "models/b.proto" := by decide
  have hab := hstep List.mem_cons_self "models/b.proto" List.mem_cons_self
  have hba := hstep (List.mem_cons_of_mem _ List.mem_cons_self) "models/a.proto" List.mem_cons_self
  rw [hA] at hab
  rw [hB] at hba
  exact .tail (.single hab) hba

end ContractBindings.Generator
