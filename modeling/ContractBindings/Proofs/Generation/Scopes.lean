import ContractBindings.Proofs.Generation.Imports
import ContractBindings.Proofs.Messages.Scopes
import ContractBindings.Proofs.Messages.Values
import ContractBindings.Proofs.Model.Generated
import ContractBindings.Proofs.Operation.Statuses

/-!
# Scopes of the messages of a model

In every message of a model the fields are numbered from one, and in the messages of operations all names differ. So they
do in the messages of types, except in the message of a union with a branch that holds any value (`model_scopes`): the
common name of the branches is then the name of one of them (`any_branch_clashes`).

All units of a model for protobuf are of one package, which is the scope of the values of all its enumerations. In one
enumeration the names of the values differ. Over all of them they differ exactly if no name of an enumeration goes on from
that of another with words that begin one of its values (`model_valueNames_nodup_iff`), which names may well do
(`extended_name_clashes`).
-/

namespace ContractBindings

open Messages Lowering

/-- The responses of an operation stand under different statuses, and each is named by its status. -/
theorem Lowering.ofGraph_statuses (g : SchemaGraph) {operations : List Operation} (target : Target) (config : Config)
    (h : ∀ o ∈ operations, DistinctStatuses o.responses) :
    ∀ o ∈ (Model.ofGraph g operations target config).operations, (o.responses.map (·.status)).Nodup ∧
      ∀ r ∈ o.responses, NormalStatus r.status ∧ r.Named := by
  refine ofGraph_operations g operations config fun c _ o ho s =>
    (lowerOperation_statuses c o s).mono (fun operation _ hstatuses => ?_) fun _ _ h => h
  obtain ⟨hsub, hnamed⟩ := hstatuses
  obtain ⟨hnodup, hnormal⟩ := h o ho
  exact ⟨hnodup.sublist hsub, fun r hr => ⟨hnormal _ (hsub.subset (List.mem_map_of_mem hr)), hnamed r hr⟩⟩

/-- The identifiers of the responses of an operation differ. -/
theorem Lowering.ofGraph_responses_nodup (g : SchemaGraph) {operations : List Operation} (target : Target)
    (config : Config) (h : ∀ o ∈ operations, DistinctStatuses o.responses) :
    ∀ o ∈ (Model.ofGraph g operations target config).operations, (o.responses.map (·.ident)).Nodup := by
  intro o ho
  obtain ⟨hnodup, hresponses⟩ := ofGraph_statuses g target config h o ho
  refine List.Nodup.map_on (fun r hr r' hr' hident => ?_) (List.Nodup.of_map _ hnodup)
  obtain ⟨hnormal, hnamed⟩ := hresponses r hr
  obtain ⟨hnormal', hnamed'⟩ := hresponses r' hr'
  rw [hnamed.ident, hnamed'.ident] at hident
  exact List.inj_on_of_nodup_map hnodup hr hr' (responseNames_injective hnormal hnormal' hident)

/-- The types in the branches of a body are used by it. -/
theorem TypeBody.names_subset_uses {b : TypeBody} {type : TypeDescriptor} (h : type ∈ b.branches) :
    type.names ⊆ b.uses := by
  cases b with
  | union variants discriminator => exact fun name hname => List.mem_flatMap.2 ⟨type, h, hname⟩
  | _ => cases h

namespace Generator

/-- The responses of the operations of a document stand under different statuses. -/
theorem extraction_statuses {g : Generator} {d : Document} {e : Extraction} (h : g.extraction d = .ok e) :
    ∀ o ∈ e.operations, DistinctStatuses o.responses := by
  obtain ⟨r, slots, hr, hslots, hrun⟩ := extraction_run h
  have hrooted : r.Rooted := (resolver_faithful hr).1.rooted
  have hstart : Extraction.ByStatus { Extraction.empty with slots := slots } :=
    ⟨definitions_orderly hrooted hslots, fun o ho => by cases ho⟩
  exact ((Extraction.document_statuses hrooted g.config.operationNaming d _ hstart).answer hrun).distinct

/-- In a model for protobuf, the text of a unit is that of its messages, whose fields have the numbers from one on. The
names in the scope of a message differ, except where a union has a branch that holds any value. -/
theorem model_scopes {g : Generator} {d : Document} {e : Extraction} {m : Model} (h : g.extraction d = .ok e)
    (hm : g.model e = .ok m) (htarget : g.target = .protobuf) :
    (∀ t ∈ m.types, (∃ imports doc, UnitParts.ofType t .protobuf = .ok ⟨imports, doc, (Declaration.ofType t).text⟩) ∧
      (∀ message ∈ (Declaration.ofType t).messages, message.Numbered) ∧
      ((∀ message ∈ (Declaration.ofType t).messages, message.names.Nodup) ↔
        ∀ type ∈ t.body.branches, type.kind ≠ .opaqueValue)) ∧
    ∀ o ∈ m.operations,
      (∃ imports doc, UnitParts.ofOperation o .protobuf = .ok ⟨imports, doc, (Declaration.ofOperation o).text⟩) ∧
      ∀ message ∈ (Declaration.ofOperation o).messages, message.Numbered ∧ message.names.Nodup := by
  have hids : (e.slots.graph.definitions.map (·.id)).Nodup := Slots.graph_nodup (extraction_spec h).2.1
  have heq := model_eq hm
  rw [htarget] at heq
  subst heq
  obtain ⟨htypes, hoperations⟩ := ofGraph_claimed e.slots.graph e.operations .protobuf g.config
  have hresponses := ofGraph_responses_nodup e.slots.graph .protobuf g.config (extraction_statuses h)
  constructor
  · intro t ht
    refine ⟨⟨_, _, rfl⟩, numbered_ofType t, names_nodup_iff (htypes t ht) fun type htype name hname => ?_⟩
    exact uses_unreserved hids e.operations ht (TypeBody.names_subset_uses htype hname)
  · intro o ho
    have hnames := names_ofOperation (hoperations o ho) (hresponses o ho)
    exact ⟨⟨_, _, rfl⟩, fun message hmessage => ⟨numbered_ofOperation o message hmessage, hnames message hmessage⟩⟩

/-- A document with an object, a union, and an operation with parameters, a body and two responses. -/
def scopedDocument : Document :=
  ⟨⟨"", "", none⟩, .mapping [
    (.text "paths", .mapping [(.text "/p", .mapping [(.text "post", .mapping [
      (.text "parameters", .sequence [
        .mapping [(.text "name", .text "limit"), (.text "in", .text "query"),
          (.text "schema", .mapping [(.text "type", .text "integer")])],
        .mapping [(.text "name", .text "body"), (.text "in", .text "header"),
          (.text "schema", .mapping [(.text "type", .text "string")])]]),
      (.text "requestBody", .mapping [(.text "content", .mapping [(.text "application/json", .mapping [
        (.text "schema", .mapping [(.text "$ref", .text "#/components/schemas/A")])])])]),
      (.text "responses", .mapping [(.text "4XX", .mapping []), (.text "default", .mapping [])])])])]),
    (.text "components", .mapping [(.text "schemas", .mapping [
      (.text "A", .mapping [
        (.text "properties", .mapping [
          (.text "id", .mapping [(.text "type", .text "integer")]),
          (.text "ID", .mapping [(.text "type", .text "string")]),
          (.text "value", .mapping [(.text "$ref", .text "#/components/schemas/U")])]),
        (.text "additionalProperties", .mapping [(.text "type", .text "string")])]),
      (.text "U", .mapping [(.text "oneOf", .sequence [
        .mapping [(.text "$ref", .text "#/components/schemas/A")],
        .mapping [(.text "type", .text "integer")]])])])])]⟩

/-- The numbers and names of the messages of a declaration. -/
def scopesOf (declaration : Declaration) : List (List Nat × List String) :=
  declaration.messages.map fun message => (message.numbers, message.names)

def scopedRun : messages.Run scopedDocument fun _ m =>
    m.types.map (fun t => scopesOf (.ofType t)) ++ m.operations.map fun o => scopesOf (.ofOperation o) where
  seen := [[([1, 2, 3, 4], ["id", "id_2", "value", "additional_properties"])], [([1, 2], ["value", "a", "int64"])],
    [([1, 2, 3], ["limit", "body", "body_2"]), ([1, 2], ["status_4xx", "default"])]]
  seen_eq := by decide +kernel

theorem model_scopes_scopedDocument : ∃ e m, messages.extraction scopedDocument = .ok e ∧ messages.model e = .ok m ∧
    m.types.map (fun t => scopesOf (.ofType t)) ++ m.operations.map (fun o => scopesOf (.ofOperation o)) =
      scopedRun.seen ∧
    (∀ t ∈ m.types, ∀ type ∈ t.body.branches, type.kind ≠ .opaqueValue) ∧
    ∀ o ∈ m.operations, ∀ message ∈ (Declaration.ofOperation o).messages, message.Numbered ∧ message.names.Nodup := by
  obtain ⟨e, m, he, hm, hseen⟩ := scopedRun.spec
  obtain ⟨htypes, hoperations⟩ := model_scopes he hm rfl
  have hnames : ∀ t ∈ m.types, ∀ message ∈ (Declaration.ofType t).messages, message.names.Nodup := by
    intro t ht message hmessage
    have hall : ∀ scopes ∈ scopedRun.seen, ∀ scope ∈ scopes, scope.2.Nodup := by decide
    refine hall (scopesOf (.ofType t)) ?_ (message.numbers, message.names) (List.mem_map_of_mem hmessage)
    rw [← hseen]
    exact List.mem_append_left _ (List.mem_map_of_mem ht)
  exact ⟨e, m, he, hm, hseen, fun t ht => (htypes t ht).2.2.1 (hnames t ht), fun o ho => (hoperations o ho).2⟩

/-- The text of a contract with a union of any value and a text. -/
def anyBranchText : String :=
  "\x7b\"components\":\x7b\"schemas\":\x7b\"U\":\x7b\"oneOf\":[\x7b\x7d,\x7b\"type\":\"string\"\x7d]\x7d\x7d\x7d\x7d"

/-- The common name of the branches is declared twice. -/
theorem any_branch_clashes : ∃ d e m, Document.load anyBranchText .json = .ok d ∧ messages.extraction d = .ok e ∧
    messages.model e = .ok m ∧ ∃ t ∈ m.types, ∃ message ∈ (Declaration.ofType t).messages,
      message.names = ["value", "value", "text"] ∧ ¬ message.names.Nodup := by
  have hrun : (Document.load anyBranchText .json).toOption.bind (fun d => (messages.extraction d).toOption.bind fun e =>
      (messages.model e).toOption.map fun m => m.types.map fun t => scopesOf (.ofType t)) =
      some [[([1, 2], ["value", "value", "text"])]] := by
    decide +kernel
  obtain ⟨d, hd, hrun⟩ := Option.bind_eq_some_iff.1 hrun
  obtain ⟨e, he, hrun⟩ := Option.bind_eq_some_iff.1 hrun
  obtain ⟨m, hm, htypes⟩ := Option.map_eq_some_iff.1 hrun
  obtain ⟨t, ht, hscopes⟩ := List.map_eq_singleton_iff.1 htypes
  obtain ⟨message, hmessages, hscope⟩ := List.map_eq_singleton_iff.1 hscopes
  have hnames : message.names = ["value", "value", "text"] := (Prod.mk.inj hscope).2
  refine ⟨d, e, m, ok_of_toOption hd, ok_of_toOption he, ok_of_toOption hm, t, ht ▸ List.mem_singleton_self t, message,
    hmessages ▸ List.mem_singleton_self message, hnames, ?_⟩
  rw [hnames]
  decide

end Generator

end ContractBindings

/-! ## Values of enumerations -/

namespace ContractBindings.Generator

open Messages Lowering

/-- In a model for protobuf, the text of a unit is that of its declaration, and the names of the values of an enumeration
differ. Those of all enumerations differ exactly if no two of them overlap. -/
theorem model_valueNames_nodup_iff {g : Generator} {d : Document} {e : Extraction} {m : Model} (h : g.extraction d = .ok e)
    (hm : g.model e = .ok m) (htarget : g.target = .protobuf) :
    (∀ t ∈ m.types, (∃ imports doc, UnitParts.ofType t .protobuf = .ok ⟨imports, doc, (Declaration.ofType t).text⟩) ∧
      (Declaration.ofType t).valueNames.Nodup) ∧
    ((m.types.flatMap fun t => (Declaration.ofType t).valueNames).Nodup ↔
      ∀ t ∈ m.types, ∀ u ∈ m.types, ¬ t.Overlaps u) := by
  have hids : (e.slots.graph.definitions.map (·.id)).Nodup := Slots.graph_nodup (extraction_spec h).2.1
  have heq := model_eq hm
  rw [htarget] at heq
  subst heq
  have hclaimed := (ofGraph_claimed e.slots.graph e.operations .protobuf g.config).1
  constructor
  · exact fun t ht => ⟨⟨_, _, rfl⟩, valueNames_nodup (hclaimed t ht)⟩
  · exact flatMap_valueNames_nodup_iff (types_forms_nodup hids e.operations) hclaimed

/-- A document with two enumerations, of which one has the value that the zero is usually named by. -/
def valuesDocument : Document :=
  ⟨⟨"", "", none⟩, .mapping [(.text "components", .mapping [(.text "schemas", .mapping [
    (.text "Size", .mapping [(.text "enum", .sequence [.text "unspecified", .text "x-l", .text "XL"])]),
    (.text "SizeUnit", .mapping [(.text "enum", .sequence [.text "cm"])])])])]⟩

def valuesRun : messages.Run valuesDocument fun _ m => m.types.map fun t => (Declaration.ofType t).valueNames where
  seen := [["SIZE_UNSPECIFIED_VALUE", "SIZE_UNSPECIFIED", "SIZE_XL", "SIZE_XL_2"], ["SIZE_UNIT_UNSPECIFIED", "SIZE_UNIT_CM"]]
  seen_eq := by decide +kernel

theorem model_valueNames_nodup_iff_valuesDocument : ∃ e m, messages.extraction valuesDocument = .ok e ∧
    messages.model e = .ok m ∧ m.types.map (fun t => (Declaration.ofType t).valueNames) = valuesRun.seen ∧
    (∀ t ∈ m.types, (Declaration.ofType t).valueNames.Nodup) ∧ ∀ t ∈ m.types, ∀ u ∈ m.types, ¬ t.Overlaps u := by
  obtain ⟨e, m, he, hm, hseen⟩ := valuesRun.spec
  obtain ⟨htypes, hall⟩ := model_valueNames_nodup_iff he hm rfl
  refine ⟨e, m, he, hm, hseen, fun t ht => (htypes t ht).2, hall.1 ?_⟩
  rw [List.flatMap_def, hseen]
  decide

/-- The text of a contract with an enumeration whose name goes on from that of another with the first word of its value. -/
def extendedText : String :=
  "\x7b\"components\":\x7b\"schemas\":\x7b\"Foo\":\x7b\"enum\":[\"bar_baz\"]\x7d,"
    ++ "\"FooBar\":\x7b\"enum\":[\"baz\"]\x7d\x7d\x7d\x7d"

/-- The two enumerations name a value alike. -/
theorem extended_name_clashes : ∃ d e m, Document.load extendedText .json = .ok d ∧ messages.extraction d = .ok e ∧
    messages.model e = .ok m ∧ m.types.map (fun t => (Declaration.ofType t).valueNames) =
      [["FOO_UNSPECIFIED", "FOO_BAR_BAZ"], ["FOO_BAR_UNSPECIFIED", "FOO_BAR_BAZ"]] ∧
    ¬ (m.types.flatMap fun t => (Declaration.ofType t).valueNames).Nodup := by
  have hrun : (Document.load extendedText .json).toOption.bind (fun d => (messages.extraction d).toOption.bind fun e =>
      (messages.model e).toOption.map fun m => m.types.map fun t => (Declaration.ofType t).valueNames) =
      some [["FOO_UNSPECIFIED", "FOO_BAR_BAZ"], ["FOO_BAR_UNSPECIFIED", "FOO_BAR_BAZ"]] := by
    decide +kernel
  obtain ⟨d, hd, hrun⟩ := Option.bind_eq_some_iff.1 hrun
  obtain ⟨e, he, hrun⟩ := Option.bind_eq_some_iff.1 hrun
  obtain ⟨m, hm, hnames⟩ := Option.map_eq_some_iff.1 hrun
  refine ⟨d, e, m, ok_of_toOption hd, ok_of_toOption he, ok_of_toOption hm, hnames, ?_⟩
  rw [List.flatMap_def, hnames]
  decide

end ContractBindings.Generator
