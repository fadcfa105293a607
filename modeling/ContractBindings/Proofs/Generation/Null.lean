import ContractBindings.Proofs.Generation.Stages
import ContractBindings.Proofs.Model.Null
import ContractBindings.Proofs.Schema.Referring

/-!
# Null in references to components

A position that is a reference to a component is lowered to the use of a name. It admits null exactly if its own node is
nullable or the definition with that name keeps null (`reference_admitsNull_iff`). So the null of a component is lost
where the component becomes a type of its own (`composite_loses_null`), and where it is an alias that chains of
references pass over.
-/

namespace ContractBindings

open Lowering

/-- A nullable definition keeps null exactly if it becomes no type of its own. -/
theorem SchemaGraph.keepsNull_iff {graph : SchemaGraph} (hids : (graph.definitions.map (·.id)).Nodup) {d : Definition}
    (hd : d ∈ graph.definitions) {node : SchemaNode} (hnode : d.node = .ok node) (hnull : node.nullable = true) :
    graph.KeepsNull d.id ↔ isComposite node.shape = false := by
  have hsame {d' : Definition} (hd' : d' ∈ graph.definitions) (hid : d.id = d'.id) {node' : SchemaNode}
      (hnode' : d'.node = .ok node') : node = node' := by
    obtain rfl : d = d' := List.inj_on_of_nodup_map hids hd hd' hid
    rw [hnode] at hnode'
    exact Except.ok.inj hnode'
  constructor
  · generalize hid : d.id = id
    rintro (⟨hd', hnode', hplain, -⟩ | ⟨hd', hnode', hshape, -⟩)
    · exact hsame hd' hid hnode' ▸ hplain
    · rw [hsame hd' hid hnode', hshape]
      rfl
  · exact fun hplain => .nullable hd hnode hplain hnull

namespace Generator

variable {g : Generator} {d : Document} {r : Resolver} {e : Extraction} {m : Model}

/-- A position that is a reference to a nullable component, interpreted and lowered in a run: its descriptor names a type,
is nullable if the position is flagged so, and admits null exactly if its node is nullable or the definition with the
name keeps null. Where the node is not nullable, is no definition itself and has no name yet, that is the definition at
the end of the chain of references; where the component is that end, it keeps null exactly if it becomes no type of its
own. -/
theorem reference_admitsNull_iff (hr : g.resolver d = .ok r) (he : g.extraction d = .ok e) (hm : g.model e = .ok m)
    {component : Definition} (hcomponent : component ∈ e.slots.graph.definitions) {content : SchemaNode}
    (hcontent : component.node = .ok content) (hnull : content.nullable = true)
    {position : Tree} (href : (position.get? "$ref").bind Tree.asText? = some component.id.pointer)
    {id : SchemaId} {s s' : Slots} {node : SchemaNode}
    (hvisit : ((Interpretation.visit r position id).run).run s = (.ok node, s'))
    {target : SchemaId} (hshape : node.shape = .reference target)
    {c : Context} (hgraph : c.graph = e.slots.graph) (hnames : c.names = (named e.slots.graph g.target).names)
    {hint : String} {place : Position} {draft draft' : Draft} {type : TypeDescriptor}
    (hlower : ((lower c hint place node).run).run draft = (.ok type, draft')) :
    ∃ name recursive,
      type = .mk (.named name recursive) node.nullable ∧
      (((position.get? "nullable").bind Tree.asBool?).getD false = true → node.nullable = true) ∧
      (m.AdmitsNull type ↔ node.nullable = true ∨
        ∃ k, (named e.slots.graph g.target).names.lookup k = some name ∧ m.Generates k ∧ e.slots.graph.KeepsNull k) ∧
      (node.nullable = false →
        (∃ found, r.find component.id.pointer id.pointer = .ok found ∧ target = ⟨found.pointer⟩) ∧
        (e.slots.graph.defines id = false → id ∉ (c.inlineNames ++ draft.inlineNames).map (·.1) → m.Generates target →
          (m.AdmitsNull type ↔ e.slots.graph.KeepsNull target) ∧
          ∀ tree, Pointer.lookup? d.root component.id.pointer = some tree → Reference.aliasTarget? tree = none →
            (m.AdmitsNull type ↔ isComposite content.shape = false))) := by
  have hids : (e.slots.graph.definitions.map (·.id)).Nodup := Slots.graph_nodup (extraction_spec he).2.1
  obtain ⟨rfl, hflagged, hfound⟩ := (Interpretation.visit_reference href id s).answer hvisit
  obtain ⟨name, recursive, htype, -, htarget⟩ := (lower_reference c hint place hshape draft).answer hlower
  have hgenerates {k : SchemaId} (hk : (named e.slots.graph g.target).names.lookup k = some name) :
      m.Generates k ↔ k ∉ lost e.slots.graph g.target g.config := by
    have hsome : ((named e.slots.graph g.target).names.lookup k).isSome = true := by simp [hk]
    obtain ⟨definition, hd, rfl, -⟩ := lookup_names_isSome_iff.1 hsome
    rw [model_eq hm]
    exact generates_iff hids e.operations (List.mem_map_of_mem hd)
  have hadmits : m.AdmitsNull type ↔ node.nullable = true ∨
      ∃ k, (named e.slots.graph g.target).names.lookup k = some name ∧ m.Generates k ∧ e.slots.graph.KeepsNull k := by
    rw [htype, model_eq hm, admitsNull_named_iff hids e.operations, ← model_eq hm]
    refine or_congr Iff.rfl (exists_congr fun k => and_congr_right fun hk => and_congr_left' ?_)
    exact (hgenerates hk).symm
  refine ⟨name, recursive, htype, hflagged, hadmits, fun hplain => ?_⟩
  obtain ⟨found, hfind, rfl⟩ := hfound target hshape hplain
  refine ⟨⟨found, hfind, rfl⟩, fun hdefines hfresh hgenerated => ?_⟩
  have hname : (named e.slots.graph g.target).names.lookup ⟨found.pointer⟩ = some name :=
    hnames ▸ htarget (hgraph ▸ hdefines) hfresh
  have hend : m.AdmitsNull type ↔ e.slots.graph.KeepsNull ⟨found.pointer⟩ := by
    rw [hadmits, hplain]
    constructor
    · rintro (hno | ⟨k, hk, -, hkeeps⟩)
      · cases hno
      · exact lookup_names_inj hk hname ▸ hkeeps
    · exact fun hkeeps => .inr ⟨_, hname, hgenerated, hkeeps⟩
  refine ⟨hend, fun tree htree hend' => ?_⟩
  obtain ⟨hfaithful, hroot, -⟩ := resolver_faithful hr
  have hself : found.pointer = component.id.pointer :=
    Reference.chase_self (hfaithful.chase_of_find hfind) (hroot ▸ htree) hend'
  rw [hend, hself, ← SchemaGraph.keepsNull_iff hids hcomponent hcontent hnull]

/-- A reference to a component. -/
def referenceToA : Tree := .mapping [(.text "$ref", .text "#/components/schemas/A")]

/-- A document where a component is a string or null. -/
def nullableDocument : Document :=
  ⟨⟨"", "", none⟩, .mapping [(.text "components", .mapping [(.text "schemas", .mapping [
    (.text "A", .mapping [(.text "type", .text "string"), (.text "nullable", .bool true)])])])]⟩

/-- The reference, found in an operation, is lowered to a descriptor that is not nullable and admits null. -/
theorem reference_admitsNull_iff_nullableDocument : ∃ r e m, strict.resolver nullableDocument = .ok r ∧
    strict.extraction nullableDocument = .ok e ∧ strict.model e = .ok m ∧ ∃ node s' type draft',
      ((Interpretation.visit r referenceToA ⟨"#/paths"⟩).run).run e.slots = (.ok node, s') ∧
      ((lower (context e.slots.graph strict.target strict.config) "value" .nested node).run).run
        (Draft.start (named e.slots.graph strict.target).registry) = (.ok type, draft') ∧
      type.nullable = false ∧ m.AdmitsNull type := by
  have hrun : (strict.resolver nullableDocument).toOption.bind (fun r =>
      (strict.extraction nullableDocument).toOption.bind fun e => (strict.model e).toOption.bind fun m =>
        (e.slots.graph.definitions.find? (·.id.pointer == "#/components/schemas/A")).bind fun component =>
          component.node.toOption.bind fun content =>
            (((Interpretation.visit r referenceToA ⟨"#/paths"⟩).run).run e.slots).1.toOption.bind fun node =>
              (((lower (context e.slots.graph strict.target strict.config) "value" .nested node).run).run
                (Draft.start (named e.slots.graph strict.target).registry)).1.toOption.map fun _ =>
                  (content.nullable, isComposite content.shape, node.nullable, node.shape.target?,
                    e.slots.graph.defines ⟨"#/paths"⟩, m.types.any (·.source.pointer == "#/components/schemas/A"))) =
      some (true, false, false, some ⟨"#/components/schemas/A"⟩, false, true) := by
    decide +kernel
  obtain ⟨r, hr, hrun⟩ := Option.bind_eq_some_iff.1 hrun
  obtain ⟨e, he, hrun⟩ := Option.bind_eq_some_iff.1 hrun
  obtain ⟨m, hm, hrun⟩ := Option.bind_eq_some_iff.1 hrun
  obtain ⟨component, hcomponent, hrun⟩ := Option.bind_eq_some_iff.1 hrun
  obtain ⟨content, hcontent, hrun⟩ := Option.bind_eq_some_iff.1 hrun
  obtain ⟨node, hnode, hrun⟩ := Option.bind_eq_some_iff.1 hrun
  obtain ⟨type, htype, hrun⟩ := Option.map_eq_some_iff.1 hrun
  simp only [Prod.mk.injEq] at hrun
  obtain ⟨hnull, hcomposite, hplain, htarget, hdefines, hany⟩ := hrun
  have hpointer : component.id.pointer = "#/components/schemas/A" := by simpa using List.find?_some hcomponent
  have href : (referenceToA.get? "$ref").bind Tree.asText? = some component.id.pointer := by
    rw [hpointer]
    decide
  have hgenerates : m.Generates ⟨"#/components/schemas/A"⟩ := by
    obtain ⟨t, ht, hsource⟩ := List.any_eq_true.1 hany
    have hpointer : t.source.pointer = "#/components/schemas/A" := by simpa using hsource
    exact ⟨t, ht, by rw [← hpointer]⟩
  obtain ⟨s', hvisit⟩ := run_of_toOption hnode
  obtain ⟨draft', hlower⟩ := run_of_toOption htype
  obtain ⟨name, recursive, hdescriptor, -, -, hmore⟩ := reference_admitsNull_iff (ok_of_toOption hr) (ok_of_toOption he)
    (ok_of_toOption hm) (List.mem_of_find?_eq_some hcomponent) (ok_of_toOption hcontent) hnull href hvisit (Shape.eq_of_target? htarget) rfl rfl
    hlower
  obtain ⟨-, hadmits⟩ := (hmore hplain).2 hdefines (by simp [context, Draft.start]) hgenerates
  refine ⟨r, e, m, ok_of_toOption hr, ok_of_toOption he, ok_of_toOption hm, node, s', type, draft', hvisit, hlower, ?_, ?_⟩
  · rw [hdescriptor]
    exact hplain
  · exact (hadmits _ (by rw [hpointer]; rfl) (by rfl)).2 hcomposite

/-- The text of a contract where a component is an object or null, and a field refers to it. -/
def compositeText : String :=
  "\x7b\"components\":\x7b\"schemas\":\x7b\"A\":\x7b\"nullable\":true,\"properties\":\x7b\x7d\x7d,"
    ++ "\"B\":\x7b\"properties\":\x7b\"a\":\x7b\"$ref\":\"#/components/schemas/A\"\x7d\x7d\x7d\x7d\x7d\x7d"

/-- The component becomes a type of its own, and the field does not admit its null. -/
theorem composite_loses_null : ∃ d e m, Document.load compositeText .json = .ok d ∧ strict.extraction d = .ok e ∧
    strict.model e = .ok m ∧
      (∃ component ∈ e.slots.graph.definitions, component.id.pointer = "#/components/schemas/A" ∧
        ∃ content, component.node = .ok content ∧ content.nullable = true) ∧
      (Pointer.lookup? d.root "#/components/schemas/B/properties/a").bind Reference.aliasTarget? =
        some "#/components/schemas/A" ∧
      ∃ t ∈ m.types, t.source.pointer = "#/components/schemas/B" ∧ ∃ type ∈ t.body.descriptors,
        type.names = ["A"] ∧ ¬ m.AdmitsNull type := by
  have hrun : (Document.load compositeText .json).toOption.bind (fun d => (strict.extraction d).toOption.bind fun e =>
      (strict.model e).toOption.bind fun m =>
        (e.slots.graph.definitions.find? (·.id.pointer == "#/components/schemas/A")).bind fun component =>
          component.node.toOption.bind fun content =>
            (m.types.find? (·.source.pointer == "#/components/schemas/B")).bind fun t =>
              t.body.descriptors.head?.map fun type =>
                ((Pointer.lookup? d.root "#/components/schemas/B/properties/a").bind Reference.aliasTarget?,
                  content.nullable, type.names, type.nullable, m.types.all (·.body.alias?.isNone))) =
      some (some "#/components/schemas/A", true, ["A"], false, true) := by
    decide +kernel
  obtain ⟨d, hd, hrun⟩ := Option.bind_eq_some_iff.1 hrun
  obtain ⟨e, he, hrun⟩ := Option.bind_eq_some_iff.1 hrun
  obtain ⟨m, hm, hrun⟩ := Option.bind_eq_some_iff.1 hrun
  obtain ⟨component, hcomponent, hrun⟩ := Option.bind_eq_some_iff.1 hrun
  obtain ⟨content, hcontent, hrun⟩ := Option.bind_eq_some_iff.1 hrun
  obtain ⟨t, ht, hrun⟩ := Option.bind_eq_some_iff.1 hrun
  obtain ⟨type, htype, hrun⟩ := Option.map_eq_some_iff.1 hrun
  simp only [Prod.mk.injEq] at hrun
  obtain ⟨htarget, hnull, hnames, hplain, haliases⟩ := hrun
  have hpointer : component.id.pointer = "#/components/schemas/A" := by simpa using List.find?_some hcomponent
  have hsource : t.source.pointer = "#/components/schemas/B" := by simpa using List.find?_some ht
  refine ⟨d, e, m, ok_of_toOption hd, ok_of_toOption he, ok_of_toOption hm,
    ⟨component, List.mem_of_find?_eq_some hcomponent, hpointer, content, ok_of_toOption hcontent, hnull⟩, htarget,
    t, List.mem_of_find?_eq_some ht, hsource, type, List.mem_of_head? htype, hnames, ?_⟩
  -- No type of the model is an alias, so only what is nullable itself admits null.
  intro hadmits
  cases hadmits with
  | nullable h =>
    rw [hplain] at h
    cases h
  | @through t' _ _ _ ht' hbody _ =>
    have hnone := List.all_eq_true.1 haliases t' ht'
    rw [hbody] at hnone
    cases hnone

end Generator

end ContractBindings
