import ContractBindings.Proofs.Generation.Propagation
import ContractBindings.Proofs.Model.Replaced

/-!
# The operations that a document allows

Where all definitions are component schemas, and payloads without a shape are rejected, a model generates the operations
whose payloads have a shape and refer to definitions that it generates (`model_operation_iff`). That is so for operations
whose schemas are told by their identities; another schema that stands at the identity of a payload gives it its name, and
then the payload is not looked at (`named_lacks_shape`).

A payload without a shape may as well be a reference to a component without one, for all that is generated
(`model_operations_replaced`). Only where payloads may be without a shape and fields may not, the component itself is rejected
as a field would be, and the operation is left out with it (`referred_left_out`).
-/

namespace ContractBindings.Generator

open Relation SchemaId Lowering

section Documents

variable {g : Generator} {d : Document} {e : Extraction} {m : Model}

/-- The references in the schemas of operations lead to definitions. -/
theorem extraction_targets (h : g.extraction d = .ok e) {o : Operation} (ho : o ∈ e.operations) {n : SchemaNode}
    (hn : n ∈ o.schemas) {t : SchemaId} (ht : t ∈ n.references) : t ∈ e.slots.graph.definitions.map (·.id) := by
  obtain ⟨ha, hs, -⟩ := extraction_spec h
  rw [Slots.graph_ids hs]
  refine (ha.takes o ho n hn).covers t ?_
  rw [SchemaNode.references_eq, mem_references_iff] at ht
  rcases ht with hshape | ⟨k, hk, hshape⟩
  · exact .inl (by rw [hshape]; exact List.mem_singleton_self t)
  · exact .inr ⟨k, hk, by rw [hshape]; exact List.mem_singleton_self t⟩

/-- The operations of a document have different identifiers. -/
theorem extraction_operations_nodup (h : g.extraction d = .ok e) : (e.operations.map (·.id)).Nodup := by
  obtain ⟨ha, -⟩ := extraction_spec h
  exact (List.nodup_append.1 (ha.perm.nodup_iff.2 ha.nodup)).1

/-- Where all definitions are component schemas, payloads without a shape are rejected and other schemas without one are not,
a model generates an operation, if its schemas are told by their identities, exactly if none of them is without a shape, or
refers to a definition whose chain ends without one, and all references in them lead to definitions that are generated. A
chain that comes to a cycle ends nowhere. -/
theorem model_operation_iff (h : g.extraction d = .ok e) (hm : g.model e = .ok m)
    (hdirect : ∀ definition ∈ e.slots.graph.definitions, definition.id.IsComponent)
    (hpayloads : g.config.unknownPayloads = .reject) (hfields : g.config.unknownFields = .opaqueValue) {o : Operation}
    (ho : o ∈ e.operations) (htells : ∀ n ∈ o.schemas, e.slots.graph.Tells e.operations n) :
    (o.id ∈ m.operations.map (·.id) ↔
      ∀ n ∈ o.schemas, ¬ e.slots.graph.Shapeless n ∧ ∀ t ∈ n.references, m.Generates t) ∧
      ∀ n ∈ o.schemas, ∀ t j, n.shape = .reference t → ReflTransGen e.slots.graph.SendsOn t j →
        TransGen e.slots.graph.SendsOn j j → ¬ e.slots.graph.Shapeless n := by
  obtain ⟨ha, hs, -⟩ := extraction_spec h
  have hslots : e.slots.Direct := Slots.direct_of_graph hs hdirect
  have hg : e.slots.graph.Coherent := Slots.graph_coherent hs ha.good hslots
  refine ⟨?_, ?_⟩
  · rw [model_eq hm, ofGraph_generates_operation_iff hg (extraction_operations_nodup h) ho htells]
    refine forall₂_congr fun n hn => ?_
    have htargets : ∀ t ∈ n.references, t ∈ e.slots.graph.definitions.map (·.id) := fun t => extraction_targets h ho hn
    rw [operationContext_accepts_iff hg.nodup hpayloads hfields htargets]
    exact and_congr_right fun _ => forall₂_congr fun t ht => (generates_iff hg.nodup e.operations (htargets t ht)).symm
  · rintro n - t j hshape hway hcycle (hunknown | ⟨t', hshape', hend⟩)
    · cases hshape.symm.trans hunknown
    · obtain rfl : t = t' := Shape.reference.inj (hshape.symm.trans hshape')
      exact SchemaGraph.not_endsShapeless_of_cycle hway hcycle hend

end Documents

/-- A path with one operation, whose response has a schema. -/
def pathWith (path : String) (schema : Tree) : Tree × Tree :=
  (.text path, .mapping [(.text "get", .mapping [(.text "responses", .mapping [(.text "200", .mapping [
    (.text "content", .mapping [(.text "application/json", .mapping [(.text "schema", schema)])])])])])])

/-- A reference to a component schema. -/
def componentRef (name : String) : Tree := .mapping [(.text "$ref", .text ("#/components/schemas/" ++ name))]

/-- A component schema that is another one or null. -/
def orNull (name : String) : Tree :=
  .mapping [(.text "oneOf", .sequence [.mapping [(.text "type", .text "null")], componentRef name])]

/-- A document with a response without a shape, one that refers to a definition without one over another definition, one that
holds a definition that cannot be generated, one that refers to a definition that refers to itself, and one that is an
object. -/
def payloadsDocument : Document :=
  ⟨⟨"", "", none⟩, .mapping [
    (.text "paths", .mapping [pathWith "/a" (.mapping []), pathWith "/b" (componentRef "Named"),
      pathWith "/c" (.mapping [(.text "type", .text "array"), (.text "items", componentRef "Broken")]),
      pathWith "/d" (componentRef "Loop"),
      pathWith "/e" (.mapping [(.text "properties", .mapping [(.text "pet", componentRef "Pet")])])]),
    (.text "components", .mapping [(.text "schemas", .mapping [(.text "Anything", .mapping []),
      (.text "Named", orNull "Anything"), (.text "Loop", orNull "Loop"),
      (.text "Broken", .mapping [(.text "type", .text "tree")]),
      (.text "Pet", .mapping [(.text "type", .text "string")])])])]⟩

/-- The definitions, the operations that are generated, and whether all identities of schemas differ. -/
def payloadsRun : standard.Run payloadsDocument fun e m =>
    (e.slots.graph.definitions.map (·.id.pointer), m.operations.map (·.id),
      decide ((e.slots.graph.borne ++ e.operations.flatMap fun o => o.schemas.flatMap SchemaNode.borne).map (·.1)).Nodup) where
  seen := (["Anything", "Named", "Loop", "Broken", "Pet"].map fun name => (SchemaId.child ⟨"#/components/schemas"⟩ name).pointer,
    ["get_d", "get_e"], true)
  seen_eq := by decide +kernel

theorem model_operation_iff_payloadsDocument : ∃ e m, standard.extraction payloadsDocument = .ok e ∧
    standard.model e = .ok m ∧ m.operations.map (·.id) = ["get_d", "get_e"] ∧
    (∀ definition ∈ e.slots.graph.definitions, definition.id.IsComponent) ∧
    standard.config.unknownPayloads = .reject ∧ standard.config.unknownFields = .opaqueValue ∧
    ∀ o ∈ e.operations, (∀ n ∈ o.schemas, e.slots.graph.Tells e.operations n) ∧
      (o.id ∈ m.operations.map (·.id) ↔
        ∀ n ∈ o.schemas, ¬ e.slots.graph.Shapeless n ∧ ∀ t ∈ n.references, m.Generates t) ∧
      ∀ n ∈ o.schemas, ∀ t j, n.shape = .reference t → ReflTransGen e.slots.graph.SendsOn t j →
        TransGen e.slots.graph.SendsOn j j → ¬ e.slots.graph.Shapeless n := by
  obtain ⟨e, m, he, hm, hseen⟩ := payloadsRun.spec
  obtain ⟨hdefinitions, hseen⟩ := Prod.mk.inj hseen
  obtain ⟨hoperations, hdiffer⟩ := Prod.mk.inj hseen
  have hdirect : ∀ definition ∈ e.slots.graph.definitions, definition.id.IsComponent := by
    refine SchemaGraph.forall_of_pointers hdefinitions fun pointer hp => ?_
    obtain ⟨name, -, rfl⟩ := List.mem_map.1 hp
    exact isComponent_child name
  have htells : ∀ o ∈ e.operations, ∀ n ∈ o.schemas, e.slots.graph.Tells e.operations n :=
    fun o ho n hn => SchemaGraph.tells_of_nodup (of_decide_eq_true hdiffer) ho hn
  exact ⟨e, m, he, hm, hoperations, hdirect, rfl, rfl, fun o ho =>
    ⟨htells o ho, model_operation_iff he hm hdirect rfl rfl ho (htells o ho)⟩⟩

/-- What a schema without a shape or with a reference consists of. -/
structure Leaf where
  id : SchemaId
  title : Option String
  description : Option String
  nullable : Bool
  target : Option SchemaId
  deriving DecidableEq

/-- The schema that consists of these. -/
def Leaf.node (l : Leaf) : SchemaNode := .mk l.id l.title l.description l.nullable (l.target.elim .unknown .reference)

/-- What a schema consists of that has no shape or a reference. -/
def leaf? : SchemaNode → Option Leaf
  | .mk id title description nullable .unknown => some ⟨id, title, description, nullable, none⟩
  | .mk id title description nullable (.reference t) => some ⟨id, title, description, nullable, some t⟩
  | _ => none

theorem eq_node_of_leaf? {n : SchemaNode} {l : Leaf} (h : leaf? n = some l) : n = l.node := by
  obtain ⟨id, title, description, nullable, shape⟩ := n
  cases shape with
  | unknown =>
    cases h
    rfl
  | reference t =>
    cases h
    rfl
  | _ => cases h

/-- The text of a contract where a path declares a response twice, by a number and by a text. Another path takes over the
first of the two declarations, which has an object; the second one has a schema without a shape. -/
def twiceText : String :=
  "paths:\n  /a:\n    get:\n      responses:\n        '200':\n          $ref: '#/paths/~1b/get/responses/200'\n"
    ++ "  /b:\n    get:\n      responses:\n        200:\n          content:\n            application/json:\n"
    ++ "              schema:\n                properties: \x7b\x7d\n        '200':\n          content:\n"
    ++ "            application/json:\n              schema: \x7b\x7d\n"

/-- The schema without a shape has the identity of the object, and gets its name. -/
theorem named_lacks_shape : ∃ d e m, Document.load twiceText .yaml = .ok d ∧ standard.extraction d = .ok e ∧
    standard.model e = .ok m ∧ e.slots.graph.definitions = [] ∧ ∃ o ∈ e.operations, o.id ∈ m.operations.map (·.id) ∧
      ∃ n ∈ o.schemas, e.slots.graph.Shapeless n := by
  have hrun : (Document.load twiceText .yaml).toOption.bind (fun d => (standard.extraction d).toOption.bind fun e =>
      (standard.model e).toOption.map fun m => e.slots.graph.definitions.isEmpty && e.operations.any fun o =>
        decide (o.id ∈ m.operations.map (·.id)) && o.schemas.any fun n => (leaf? n).any fun l => l.target.isNone) = some true := by
    decide +kernel
  obtain ⟨d, hd, hrun⟩ := Option.bind_eq_some_iff.1 hrun
  obtain ⟨e, he, hrun⟩ := Option.bind_eq_some_iff.1 hrun
  obtain ⟨m, hm, hrun⟩ := Option.map_eq_some_iff.1 hrun
  rw [Bool.and_eq_true, List.isEmpty_iff, List.any_eq_true] at hrun
  obtain ⟨hnone, o, ho, hboth⟩ := hrun
  rw [Bool.and_eq_true, decide_eq_true_iff, List.any_eq_true] at hboth
  obtain ⟨hid, n, hn, hleaf⟩ := hboth
  obtain ⟨l, hl, htarget⟩ := (Option.any_eq_true _ _).1 hleaf
  refine ⟨d, e, m, ok_of_toOption hd, ok_of_toOption he, ok_of_toOption hm, hnone, o, ho, hid, n, hn, .inl ?_⟩
  rw [eq_node_of_leaf? hl, Leaf.node, Option.isNone_iff_eq_none.1 htarget]
  rfl

/-! ## References in place of schemas without a shape -/

/-- A model generates the same operations if schemas without a shape, as the whole of a parameter, body or response, are
replaced by references to definitions whose chains end without a shape: where payloads without a shape are rejected, or
neither these nor other schemas without one are. -/
theorem model_operations_replaced {g : Generator} {d : Document} {e e' : Extraction} {m m' : Model}
    (h : g.extraction d = .ok e) (hm : g.model e = .ok m) (hm' : g.model e' = .ok m')
    (hgraph : e'.slots.graph = e.slots.graph)
    (hoperations : List.Forall₂ (e.slots.graph.Restates e.operations) e.operations e'.operations)
    (hpolicy : g.config.unknownPayloads = .reject ∨ g.config.unknownFields = .opaqueValue) :
    m'.operations.map (·.id) = m.operations.map (·.id) := by
  rw [model_eq hm, model_eq hm', hgraph]
  exact ofGraph_operations_replaced (Slots.graph_nodup (extraction_spec h).2.1) hpolicy hoperations

/-- Nothing in such a schema becomes a type. -/
theorem Leaf.everywhere (l : Leaf) : l.node.shape.Everywhere fun shape => isComposite shape = false := by
  obtain ⟨id, title, description, nullable, target⟩ := l
  cases target <;> exact Shape.everywhere_of_leaf rfl rfl

/-- The definitions that are made of such schemas. -/
theorem definitions_of_leaf? : ∀ {ds : List Definition} {leaves : List (SchemaId × Leaf)},
    ds.map (fun d => (d.id, d.node.toOption.bind leaf?)) = leaves.map (fun x => (x.1, some x.2)) →
      ds = leaves.map fun x => ⟨x.1, .ok x.2.node⟩
  | [], [], _ => rfl
  | [], _ :: _, h => by cases h
  | _ :: _, [], h => by cases h
  | d :: ds, x :: leaves, h => by
    obtain ⟨hfirst, hrest⟩ := List.cons.inj h
    obtain ⟨hid, hleaf⟩ := Prod.mk.inj hfirst
    obtain ⟨n, hn, hleaf⟩ := Option.bind_eq_some_iff.1 hleaf
    rw [List.map_cons, definitions_of_leaf? hrest, ← hid, ← eq_node_of_leaf? hleaf, ← ok_of_toOption hn]

/-- The text of a contract with one operation, whose response has the given schema, and with two component schemas: one
without a shape, and one that is the first one or null. -/
def anythingText (schema : String) : String :=
  "\x7b\"paths\":\x7b\"/p\":\x7b\"get\":\x7b\"responses\":\x7b\"200\":\x7b\"content\":\x7b\"application/json\":\x7b\"schema\":"
    ++ schema ++ "\x7d\x7d\x7d\x7d\x7d\x7d\x7d,\"components\":\x7b\"schemas\":\x7b\"Anything\":\x7b\x7d,"
    ++ "\"Named\":\x7b\"oneOf\":[\x7b\"type\":\"null\"\x7d,\x7b\"$ref\":\"#/components/schemas/Anything\"\x7d]\x7d\x7d\x7d\x7d"

/-- A response without a shape. -/
def placedText : String := anythingText "\x7b\x7d"

/-- A response that refers to the definition that refers to the one without a shape. -/
def referredText : String := anythingText "\x7b\"$ref\":\"#/components/schemas/Named\"\x7d"

/-- Generation that keeps payloads without a shape. -/
def lenient : Generator := ⟨.rust, { unknownPayloads := .opaqueValue }, none⟩

/-- Generation that keeps payloads without a shape, but rejects fields without one. -/
def guarded : Generator := ⟨.rust, { unknownPayloads := .opaqueValue, unknownFields := .reject }, none⟩

/-- What is seen of an extraction: what its definitions and the schemas of its operations consist of, and the operations
that are generated from it. -/
structure Seen where
  definitions : List (SchemaId × Option Leaf)
  operations : List (String × List (Option Leaf))
  lenient : List String
  guarded : List String
  deriving DecidableEq

def Seen.of (e : Extraction) : Seen where
  definitions := e.slots.graph.definitions.map fun d => (d.id, d.node.toOption.bind leaf?)
  operations := e.operations.map fun o => (o.id, o.schemas.map leaf?)
  lenient := (Model.ofGraph e.slots.graph e.operations .rust Generator.lenient.config).operations.map (·.id)
  guarded := (Model.ofGraph e.slots.graph e.operations .rust Generator.guarded.config).operations.map (·.id)

/-- What the definitions of the contract consist of. -/
def anythingLeaves : List (SchemaId × Leaf) :=
  [(⟨"#/components/schemas/Anything"⟩, ⟨⟨"#/components/schemas/Anything"⟩, none, none, false, none⟩),
    (⟨"#/components/schemas/Named"⟩,
      ⟨⟨"#/components/schemas/Named"⟩, none, none, true, some ⟨"#/components/schemas/Anything"⟩⟩)]

/-- What the response consists of. -/
def responseLeaf (target : Option SchemaId) : Leaf :=
  ⟨⟨"#/paths/~1p/get/responses/200/content/application~1json/schema"⟩, none, none, false, target⟩

/-- One operation, whose schema consists of these. -/
theorem operation_of_leaf? {os : List Operation} {id : String} {l : Leaf}
    (h : os.map (fun o => (o.id, o.schemas.map leaf?)) = [(id, [some l])]) :
    ∃ o, os = [o] ∧ o.id = id ∧ o.schemas = [l.node] := by
  obtain ⟨o, ho, hview⟩ := List.map_eq_singleton_iff.1 h
  obtain ⟨hid, hschemas⟩ := Prod.mk.inj hview
  obtain ⟨n, hn, hleaf⟩ := List.map_eq_singleton_iff.1 hschemas
  exact ⟨o, ho, hid, by rw [hn, eq_node_of_leaf? hleaf]⟩

/-- The second contract has the definitions of the first, and its response refers to one of them in the place of a schema
without a shape. -/
theorem referred_restates_placed : ∃ d d' e e', Document.load placedText .json = .ok d ∧
    Document.load referredText .json = .ok d' ∧ lenient.extraction d = .ok e ∧ lenient.extraction d' = .ok e' ∧
    e'.slots.graph = e.slots.graph ∧
    List.Forall₂ (e.slots.graph.Restates e.operations) e.operations e'.operations ∧
    (Seen.of e).lenient = ["get_p"] ∧ (Seen.of e).guarded = ["get_p"] ∧ (Seen.of e').guarded = [] := by
  have hrun : (Document.load placedText .json).toOption.bind (fun d => (Document.load referredText .json).toOption.bind
      fun d' => (lenient.extraction d).toOption.bind fun e => (lenient.extraction d').toOption.map fun e' =>
        (Seen.of e, Seen.of e')) =
      some (⟨anythingLeaves.map fun x => (x.1, some x.2), [("get_p", [some (responseLeaf none)])], ["get_p"], ["get_p"]⟩,
        ⟨anythingLeaves.map fun x => (x.1, some x.2),
          [("get_p", [some (responseLeaf (some ⟨"#/components/schemas/Named"⟩))])], ["get_p"], []⟩) := by
    decide +kernel
  obtain ⟨d, hd, hrun⟩ := Option.bind_eq_some_iff.1 hrun
  obtain ⟨d', hd', hrun⟩ := Option.bind_eq_some_iff.1 hrun
  obtain ⟨e, he, hrun⟩ := Option.bind_eq_some_iff.1 hrun
  obtain ⟨e', he', hseen⟩ := Option.map_eq_some_iff.1 hrun
  obtain ⟨hseen, hseen'⟩ := Prod.mk.inj hseen
  have hgraph : e.slots.graph = ⟨anythingLeaves.map fun x => ⟨x.1, .ok x.2.node⟩⟩ :=
    congrArg SchemaGraph.mk (definitions_of_leaf? (congrArg Seen.definitions hseen))
  have hgraph' : e'.slots.graph = ⟨anythingLeaves.map fun x => ⟨x.1, .ok x.2.node⟩⟩ :=
    congrArg SchemaGraph.mk (definitions_of_leaf? (congrArg Seen.definitions hseen'))
  obtain ⟨o, ho, hid, hschemas⟩ := operation_of_leaf? (congrArg Seen.operations hseen)
  obtain ⟨o', ho', hid', hschemas'⟩ := operation_of_leaf? (congrArg Seen.operations hseen')
  refine ⟨d, d', e, e', ok_of_toOption hd, ok_of_toOption hd', ok_of_toOption he, ok_of_toOption he',
    hgraph'.trans hgraph.symm, ?_, congrArg Seen.lenient hseen, congrArg Seen.guarded hseen, congrArg Seen.guarded hseen'⟩
  rw [ho, ho']
  refine .cons ⟨hid'.trans hid.symm, ?_⟩ .nil
  rw [hschemas, hschemas']
  refine .cons (.inr ?_) .nil
  constructor
  case unknown => rfl
  case inline =>
    rw [hgraph]
    decide +kernel
  case plain =>
    intro shape hbears
    refine hbears.of_everywhere (P := (isComposite · = false)) (fun d hd node hnode => ?_) fun o ho n hn => ?_
    · rw [hgraph] at hd
      obtain ⟨x, -, rfl⟩ := List.mem_map.1 hd
      obtain rfl := Except.ok.inj hnode
      exact x.2.everywhere
    · obtain rfl := List.mem_singleton.1 ho
      rw [hschemas] at hn
      obtain rfl := List.mem_singleton.1 hn
      exact (responseLeaf none).everywhere
  case id_eq => rfl
  case reference =>
    refine ⟨⟨"#/components/schemas/Named"⟩, rfl, ?_⟩
    rw [hgraph]
    exact shapelessEnd_isSome_iff.1 (by decide +kernel)

theorem model_operations_replaced_referredText : ∃ d d' e e' m m', Document.load placedText .json = .ok d ∧
    Document.load referredText .json = .ok d' ∧ lenient.extraction d = .ok e ∧ lenient.extraction d' = .ok e' ∧
    lenient.model e = .ok m ∧ lenient.model e' = .ok m' ∧ e'.slots.graph = e.slots.graph ∧
    List.Forall₂ (e.slots.graph.Restates e.operations) e.operations e'.operations ∧
    lenient.config.unknownFields = .opaqueValue ∧ m.operations.map (·.id) = ["get_p"] ∧
    m'.operations.map (·.id) = m.operations.map (·.id) := by
  obtain ⟨d, d', e, e', hd, hd', he, he', hgraph, hoperations, hseen, -⟩ := referred_restates_placed
  exact ⟨d, d', e, e', _, _, hd, hd', he, he', rfl, rfl, hgraph, hoperations, rfl, hseen,
    model_operations_replaced he rfl rfl hgraph hoperations (.inr rfl)⟩

/-- Where payloads without a shape are kept but other schemas without one are rejected, the operation is generated with the
schema without a shape in its place, and is not with the reference. -/
theorem referred_left_out : ∃ d d' e e' m m', Document.load placedText .json = .ok d ∧
    Document.load referredText .json = .ok d' ∧ guarded.extraction d = .ok e ∧ guarded.extraction d' = .ok e' ∧
    guarded.model e = .ok m ∧ guarded.model e' = .ok m' ∧ e'.slots.graph = e.slots.graph ∧
    List.Forall₂ (e.slots.graph.Restates e.operations) e.operations e'.operations ∧
    m.operations.map (·.id) = ["get_p"] ∧ m'.operations.map (·.id) = [] := by
  obtain ⟨d, d', e, e', hd, hd', he, he', hgraph, hoperations, -, hseen, hseen'⟩ := referred_restates_placed
  exact ⟨d, d', e, e', _, _, hd, hd', he, he', rfl, rfl, hgraph, hoperations, hseen, hseen'⟩

end ContractBindings.Generator
