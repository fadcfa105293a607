import ContractBindings.Proofs.Generation.Stages
import ContractBindings.Proofs.Model.Tags
import ContractBindings.Proofs.Operation.Schemas

/-!
# Tags in the model of a document

Every union of a model that keeps its discriminator is declared in the document, and its tags tell the schemas of its
branches apart and are all that the mapping selects exactly if the mapping leaves no doubt (`model_tags`). A mapping that
selects two tags for one branch, one of them the implied tag of another, does not (`selected_clashes_implied`).
-/

namespace ContractBindings

open Interpretation Lowering

namespace Generator

variable {g : Generator} {d : Document}

/-- The unions in the definitions and operations of a document are declared in it. -/
theorem extraction_declared {e : Extraction} (h : g.extraction d = .ok e) :
    (∀ definition ∈ e.slots.graph.definitions, ∀ node, definition.node = .ok node →
      node.shape.Everywhere (Shape.Declared d.root)) ∧
      ∀ o ∈ e.operations, ∀ n ∈ o.schemas, n.shape.Everywhere (Shape.Declared d.root) := by
  obtain ⟨r, slots, hresolver, hslots, hrun⟩ := extraction_run h
  have hr : r.Serves d.root := by
    obtain ⟨hfaithful, hroot, hbound⟩ := resolver_faithful hresolver
    exact ⟨hroot, hbound, hfaithful⟩
  have hnone : Slots.Declared d.root [] := fun k n hk => by cases hk
  have hcomponents : slots.Declared d.root := ((components_declared hr [] hnone).answer (definitions_run hslots)).1
  have hgrants : r.Grants d.root (Slots.Declared d.root) fun n => n.shape.Everywhere (Shape.Declared d.root) :=
    ⟨hr, fun tree id htree => visit_declared hr htree id, everywhere_unknown⟩
  have hstart : Extraction.Satisfies (Slots.Declared d.root) (fun n => n.shape.Everywhere (Shape.Declared d.root))
      { Extraction.empty with slots := slots } := ⟨hcomponents, fun o ho => by cases ho⟩
  have hsatisfies := (Extraction.document_satisfies hgrants g.config.operationNaming _ hstart).answer hrun
  refine ⟨fun definition hmem node hnode => hsatisfies.slots definition.id node ?_, hsatisfies.operations⟩
  have hslot := lookup_of_mem (extraction_spec h).2.1.nodup_nil (Slots.mem_graph.1 hmem)
  rw [hnode] at hslot
  exact hslot

/-- In the model of a document, a union drops its discriminator with all tags, or keeps it with a tag for every variant. A
union that keeps it has the branches that a schema of the document declares. Its tags tell the schemas of the branches
apart and are all that the entries of the mapping select for them, exactly if these and the implied tags leave no doubt. -/
theorem model_tags {e : Extraction} {m : Model} (he : g.extraction d = .ok e) (hm : g.model e = .ok m) {t : TypeDef}
    (ht : t ∈ m.types) {variants : List UnionVariant} {kept : Option String} (hbody : t.body = .union variants kept) :
    (kept = none → ∀ v ∈ variants, v.tag = none) ∧
      ∀ property, kept = some property → (∀ v ∈ variants, v.tag ≠ none) ∧
        ∃ discriminator tree id branches selections,
          e.slots.graph.Bears e.operations t.source (.union branches (some discriminator)) ∧
          DeclaresUnion d.root tree id branches property selections ∧
          (∀ branch ∈ branches, branch.nullable = false) ∧ variants.length = branches.length ∧
          (TagsTell selections (variants.zip branches) ↔ Unambiguous selections ((variants.zip branches).map tagBasis)) := by
  rw [model_eq hm] at ht
  obtain ⟨branches, discriminator, hbears, htagged⟩ := ofGraph_tagged _ _ _ _ ht hbody
  refine ⟨htagged.dropped, fun property hkept => ?_⟩
  obtain ⟨discriminator, rfl, rfl, hnullable, htags⟩ := htagged.tagged property hkept
  obtain ⟨hgraph, hoperations⟩ := extraction_declared he
  obtain ⟨tree, id, selections, hdeclares, hselected⟩ := hbears.of_everywhere hgraph hoperations
  have hchosen : ∀ p ∈ variants.zip branches, p.1.tag = some (chosenTag selections (tagBasis p)) := by
    intro p hp
    rw [htags p hp, hselected, tagsOf, lookup_foldl_upsert, List.lookup_nil, Option.or_none]
    rfl
  refine ⟨fun v hv hno => ?_, discriminator, tree, id, branches, selections, hbears, hdeclares, hnullable,
    htagged.length_eq, tagsTell_iff hchosen⟩
  rw [← List.map_fst_zip (Nat.le_of_eq htagged.length_eq)] at hv
  obtain ⟨p, hp, rfl⟩ := List.mem_map.1 hv
  rw [hchosen p hp] at hno
  cases hno

/-- The source of a union, the property of the discriminator that it keeps, and its tags. -/
def unionTags (t : TypeDef) : Option (SchemaId × Option String × List (Option String)) :=
  match t.body with
  | .union variants kept => some (t.source, kept, variants.map (·.tag))
  | _ => none

/-- The schemas that the branches of a definition select, if it is a union with a discriminator. -/
def unionSchemas (definition : Definition) : Option (SchemaId × List SchemaId) :=
  match definition.node with
  | .ok node =>
    match node.shape with
    | .union branches (some _) => some (definition.id, branches.map (·.selected))
    | _ => none
  | .error _ => none

theorem unionTags_eq_some {t : TypeDef} {source : SchemaId} {kept : Option String} {tags : List (Option String)}
    (h : unionTags t = some (source, kept, tags)) :
    t.source = source ∧ ∃ variants, t.body = .union variants kept ∧ variants.map (·.tag) = tags := by
  unfold unionTags at h
  split at h
  · next variants kept' hbody =>
    cases h
    exact ⟨rfl, variants, hbody, rfl⟩
  · cases h

theorem bears_of_unionSchemas {graph : SchemaGraph} (operations : List Operation) {definition : Definition}
    {source : SchemaId} {schemas : List SchemaId} (hd : definition ∈ graph.definitions)
    (h : unionSchemas definition = some (source, schemas)) : ∃ branches discriminator,
      graph.Bears operations source (.union branches (some discriminator)) ∧ branches.map (·.selected) = schemas := by
  unfold unionSchemas at h
  split at h
  · next node hnode =>
    split at h
    · next branches discriminator hshape =>
      cases h
      exact ⟨branches, discriminator, .definition hd hnode rfl hshape, rfl⟩
    · cases h
  · cases h

/-- A document with three unions: the first has a tag for one branch, through an alias, the second a branch that is no
object, and the third no discriminator. -/
def petsDocument : Document :=
  ⟨⟨"", "", none⟩, .mapping [(.text "components", .mapping [(.text "schemas", .mapping [
    (.text "Pet", .mapping [
      (.text "oneOf", .sequence [.mapping [(.text "$ref", .text "#/components/schemas/Cat")],
        .mapping [(.text "$ref", .text "#/components/schemas/Dog")]]),
      (.text "discriminator", .mapping [(.text "propertyName", .text "kind"),
        (.text "mapping", .mapping [(.text "kitty", .text "Feline")])])]),
    (.text "Named", .mapping [
      (.text "oneOf", .sequence [.mapping [(.text "$ref", .text "#/components/schemas/Cat")],
        .mapping [(.text "type", .text "string")]]),
      (.text "discriminator", .text "kind")]),
    (.text "Either", .mapping [
      (.text "oneOf", .sequence [.mapping [(.text "type", .text "string")], .mapping [(.text "type", .text "integer")]])]),
    (.text "Feline", .mapping [(.text "$ref", .text "#/components/schemas/Cat")]),
    (.text "Cat", .mapping [(.text "properties", .mapping [])]),
    (.text "Dog", .mapping [(.text "properties", .mapping [])])])])]⟩

/-- Its model, with the tags of the unions. -/
def petsRun : standard.Run petsDocument fun _ m => m.types.filterMap unionTags where
  seen := [(⟨"#/components/schemas/Pet"⟩, some "kind", [some "kitty", some "Dog"]),
    (⟨"#/components/schemas/Named"⟩, none, [none, none]), (⟨"#/components/schemas/Either"⟩, none, [none, none])]
  seen_eq := by decide +kernel

/-- The first union of the document keeps its discriminator. -/
theorem model_tags_petsDocument : ∃ e m, standard.extraction petsDocument = .ok e ∧ standard.model e = .ok m ∧
    ∃ t ∈ m.types, ∃ variants, t.body = .union variants (some "kind") ∧
      variants.map (·.tag) = [some "kitty", some "Dog"] ∧ ∃ discriminator tree id branches selections,
        e.slots.graph.Bears e.operations t.source (.union branches (some discriminator)) ∧
        DeclaresUnion petsDocument.root tree id branches "kind" selections ∧
        (TagsTell selections (variants.zip branches) ↔ Unambiguous selections ((variants.zip branches).map tagBasis)) := by
  obtain ⟨e, m, he, hm, hseen⟩ := petsRun.spec
  have hmem : (⟨"#/components/schemas/Pet"⟩, some "kind", [some "kitty", some "Dog"]) ∈ m.types.filterMap unionTags := by
    rw [hseen]
    exact List.mem_cons_self
  obtain ⟨t, ht, htags⟩ := List.mem_filterMap.1 hmem
  obtain ⟨-, variants, hbody, htags⟩ := unionTags_eq_some htags
  obtain ⟨-, discriminator, tree, id, branches, selections, hbears, hdeclares, -, -, hiff⟩ :=
    (model_tags he hm ht hbody).2 "kind" rfl
  exact ⟨e, m, he, hm, t, ht, variants, hbody, htags, discriminator, tree, id, branches, selections, hbears, hdeclares, hiff⟩

/-- The text of a contract with a union of `Cat` and `Dog`, the mapping of which selects two tags for `Cat`. -/
def clashingText : String :=
  "\x7b\"components\":\x7b\"schemas\":\x7b"
    ++ "\"Pet\":\x7b\"oneOf\":[\x7b\"$ref\":\"#/components/schemas/Cat\"\x7d,\x7b\"$ref\":\"#/components/schemas/Dog\"\x7d],"
    ++ "\"discriminator\":\x7b\"propertyName\":\"kind\",\"mapping\":\x7b\"cat\":\"Cat\",\"Dog\":\"Cat\"\x7d\x7d\x7d,"
    ++ "\"Cat\":\x7b\"properties\":\x7b\x7d\x7d,\"Dog\":\x7b\"properties\":\x7b\x7d\x7d\x7d\x7d\x7d"

/-- What the mapping of the discriminator at a pointer selects. -/
def selectionsAt (root : Tree) (id : SchemaId) : Option (String × List (SchemaId × String)) := do
  let entries ← (← Pointer.lookup? root id.pointer).asMapping?
  let (property, mapping) ← declaredDiscriminator? entries
  return (property, mapping.filterMap (selection? root (id.child "discriminator")))

set_option synthInstance.maxSize 512 in
/-- Both variants have the tag that is implied for `Dog`, and the other tag for `Cat` is lost. -/
theorem selected_clashes_implied : ∃ d e m, Document.load clashingText .json = .ok d ∧
    standard.extraction d = .ok e ∧ standard.model e = .ok m ∧ ∃ t ∈ m.types, ∃ variants branches discriminator selections,
      t.body = .union variants (some "kind") ∧
      e.slots.graph.Bears e.operations t.source (.union branches (some discriminator)) ∧
      selectionsAt d.root t.source = some ("kind", selections) ∧ ¬ TagsTell selections (variants.zip branches) ∧
      variants.map (·.tag) = [some "Dog", some "Dog"] ∧
      branches.map (·.selected) = [⟨"#/components/schemas/Cat"⟩, ⟨"#/components/schemas/Dog"⟩] ∧
      (⟨"#/components/schemas/Cat"⟩, "cat") ∈ selections := by
  have hrun : (Document.load clashingText .json).toOption.bind (fun d => (standard.extraction d).toOption.bind fun e =>
      (standard.model e).toOption.map fun m => (m.types.filterMap unionTags, e.slots.graph.definitions.filterMap unionSchemas,
        selectionsAt d.root ⟨"#/components/schemas/Pet"⟩)) =
      some ([(⟨"#/components/schemas/Pet"⟩, some "kind", [some "Dog", some "Dog"])],
        [(⟨"#/components/schemas/Pet"⟩, [⟨"#/components/schemas/Cat"⟩, ⟨"#/components/schemas/Dog"⟩])],
        some ("kind", [(⟨"#/components/schemas/Cat"⟩, "cat"), (⟨"#/components/schemas/Cat"⟩, "Dog")])) := by
    decide +kernel
  obtain ⟨d, hd, hrun⟩ := Option.bind_eq_some_iff.1 hrun
  obtain ⟨e, he, hrun⟩ := Option.bind_eq_some_iff.1 hrun
  obtain ⟨m, hm, hseen⟩ := Option.map_eq_some_iff.1 hrun
  obtain ⟨htypes, hseen⟩ := Prod.mk.inj hseen
  obtain ⟨hdefinitions, hselections⟩ := Prod.mk.inj hseen
  obtain ⟨t, ht, htags⟩ := List.mem_filterMap.1 (htypes ▸ List.mem_singleton_self _)
  obtain ⟨hsource, variants, hbody, htags⟩ := unionTags_eq_some htags
  obtain ⟨definition, hdefinition, hschemas⟩ := List.mem_filterMap.1 (hdefinitions ▸ List.mem_singleton_self _)
  obtain ⟨branches, discriminator, hbears, hschemas⟩ := bears_of_unionSchemas e.operations hdefinition hschemas
  rw [← hsource] at hbears hselections
  refine ⟨d, e, m, ok_of_toOption hd, ok_of_toOption he, ok_of_toOption hm, t, ht, variants, branches, discriminator, _, hbody,
    hbears, hselections, fun htell => ?_, htags, hschemas, List.mem_cons_self⟩
  obtain ⟨v, variants, rfl, hv, -⟩ := List.map_eq_cons_iff.1 htags
  obtain ⟨branch, branches, rfl, hbranch, -⟩ := List.map_eq_cons_iff.1 hschemas
  have hsaid : v.tag = some "cat" := htell.said _ List.mem_cons_self (v, branch) List.mem_cons_self hbranch
  rw [hv] at hsaid
  exact absurd hsaid (by decide)

end Generator

end ContractBindings
