import ContractBindings.Proofs.Generation.Stages
import ContractBindings.Proofs.Model.Generated
import ContractBindings.Proofs.Schema.Extension

/-!
# Generation from documents that are extended

Where operations and component schemas are added to a document, the definitions that its components open come first in the
graph, as they were (`definitions_extended`), and claim their names before any others. So they keep their names
(`extended_names`), unless a reference leads to a mapping that was itself added to and is another schema now.
-/

namespace ContractBindings.Generator

open Lowering

variable {g : Generator} {d d' : Document}

theorem resolver_serves {r : Resolver} (h : g.resolver d = .ok r) : r.Serves d.root := by
  obtain ⟨hfaithful, hroot, hbound⟩ := resolver_faithful h
  exact ⟨hroot, hbound, hfaithful⟩

/-- The definitions of a document come first in the extended document, as they were. -/
theorem definitions_extended (hd : d.Extends d') {r r' : Resolver} {slots slots' : Slots} (hr : g.resolver d = .ok r)
    (hslots : g.definitions r d = .ok slots) (hr' : g.resolver d' = .ok r') (hslots' : g.definitions r' d' = .ok slots')
    (hkeeps : ∀ k ∈ slots.map (·.1), k ∉ d.componentIds → d.Keeps d' k) : slots.Grows slots' := by
  have hall : ∀ k ∈ slots.map (·.1), d.Keeps d' k := by
    intro k hk
    by_cases hcomponent : k ∈ d.componentIds
    · exact hd.keeps_component hcomponent
    · exact hkeeps k hk hcomponent
  obtain ⟨more, hmore⟩ := Interpretation.components_extended hd (resolver_serves hr) (resolver_serves hr')
    (definitions_run hslots) hall
  rw [definitions_run hslots'] at hmore
  have hgood := (definitions_spec (resolver_faithful hr).1.rooted hslots).2
  have hends := Interpretation.componentList_lands (resolver_faithful hr').1.rooted more slots hgood
  exact (hends.answer hmore.symm).1

/-- The definitions that the components of a document open have the same names in the extended document, if those that are
no component schemas are the same schemas there. So have their types, where both models have one. -/
theorem extended_names (hd : d.Extends d') {r : Resolver} {slots : Slots} {e e' : Extraction}
    (hr : g.resolver d = .ok r) (hslots : g.definitions r d = .ok slots) (he : g.extraction d = .ok e)
    (he' : g.extraction d' = .ok e') (hkeeps : ∀ k ∈ slots.map (·.1), k ∉ d.componentIds → d.Keeps d' k) :
    ∀ k ∈ slots.map (·.1),
      (named e'.slots.graph g.target).names.lookup k = (named e.slots.graph g.target).names.lookup k ∧
      ∀ m m', g.model e = .ok m → g.model e' = .ok m' → ∀ t ∈ m.types, ∀ t' ∈ m'.types,
        t.source = k → t'.source = k → t'.name = t.name := by
  obtain ⟨r₁, slots₁, hr₁, hslots₁, -, hgrows, -⟩ := extraction_stages he
  obtain ⟨r', slots', hr', hslots', -, hgrows', -⟩ := extraction_stages he'
  obtain rfl : r = r₁ := Except.ok.inj (hr.symm.trans hr₁)
  obtain rfl : slots = slots₁ := Except.ok.inj (hslots.symm.trans hslots₁)
  have hextended := (definitions_extended hd hr hslots hr' hslots' hkeeps).trans hgrows'
  have hwhole := (definitions_spec (resolver_faithful hr).1.rooted hslots).1
  have hids := Slots.graph_nodup (hwhole.trans hgrows)
  have hids' := Slots.graph_nodup (hwhole.trans hextended)
  intro k hk
  have hmem : k ∈ slots.graph.definitions.map (·.id) := by rwa [Slots.graph_ids hwhole]
  have hname : (named e'.slots.graph g.target).names.lookup k = (named e.slots.graph g.target).names.lookup k :=
    (lookup_names_of_isPrefix g.target hextended.graph_isPrefix hids' hmem).trans
      (lookup_names_of_isPrefix g.target hgrows.graph_isPrefix hids hmem).symm
  refine ⟨hname, fun m m' hm hm' t ht t' ht' hsource hsource' => ?_⟩
  rw [model_eq hm] at ht
  rw [model_eq hm'] at ht'
  have hdefines : e.slots.graph.defines t.source = true := by
    rw [hsource, SchemaGraph.defines_iff]
    exact (hgrows.graph_isPrefix.map _).subset hmem
  have hdefines' : e'.slots.graph.defines t'.source = true := by
    rw [hsource', SchemaGraph.defines_iff]
    exact (hextended.graph_isPrefix.map _).subset hmem
  have hfound := (mem_kept_of_source hids e.operations ht hdefines).2
  have hfound' := (mem_kept_of_source hids' e'.operations ht' hdefines').2
  rw [hsource] at hfound
  rw [hsource', hname, hfound] at hfound'
  exact (Option.some.inj hfound').symm

/-- A document with the given entries, of which the last are component schemas. -/
def componentDocument (entries schemas : Entries) : Document :=
  ⟨⟨"", "", none⟩, .mapping (entries ++ [(.text "components", .mapping [(.text "schemas", .mapping schemas)])])⟩

/-- Entries are put before the components, and component schemas after those that there are. -/
theorem componentDocument_extends {before schemas more : Entries}
    (hbefore : (before.filterMap (·.1.keyText?) ++ ["components"]).Nodup)
    (hschemas : ((schemas ++ more).filterMap (·.1.keyText?)).Nodup)
    (halias : Reference.aliasTarget? (.mapping schemas) = none) :
    (componentDocument [] schemas).Extends (componentDocument before (schemas ++ more)) := by
  have happended : Tree.Appended (.mapping schemas) (.mapping (schemas ++ more)) := by
    refine ⟨.mapping ?_ hschemas fun target h => ?_, schemas, more, rfl, rfl⟩
    · exact List.sublistForall₂_iff.2 ⟨schemas, List.forall₂_same.2 fun _ _ => ⟨rfl, .inl rfl⟩,
        List.sublist_append_left _ _⟩
    · rw [halias] at h
      cases h
  have hcomponents : Tree.WidenedComponents (.mapping [(.text "schemas", .mapping schemas)])
      (.mapping [(.text "schemas", .mapping (schemas ++ more))]) :=
    .mapping (.cons ⟨rfl, .inr ⟨rfl, happended⟩⟩ .nil) (List.nodup_singleton _) fun _ h => by cases h
  refine .mapping ?_ (by simpa [Tree.keyText?] using hbefore) fun _ h => by cases h
  refine List.sublistForall₂_iff.2 ⟨[(.text "components", .mapping [(.text "schemas", .mapping (schemas ++ more))])],
    .cons ⟨rfl, .inr (.inl ⟨rfl, hcomponents⟩)⟩ .nil, List.sublist_append_right before _⟩

/-- An object with a title. -/
def titledObject (title : String) (properties : Entries) : Tree :=
  .mapping [(.text "title", .text title), (.text "properties", .mapping properties)]

/-- Two component schemas of one title, the first of which refers to the second. -/
def titledSchemas : Entries :=
  [(.text "A", titledObject "T" [(.text "b", .mapping [(.text "$ref", .text "#/components/schemas/B")])]),
    (.text "B", titledObject "T" [])]

/-- The entry of `paths`, with an operation that answers with an object of that title. -/
def titledPaths : Entries :=
  [(.text "paths", .mapping [(.text "/p", .mapping [(.text "get", .mapping [(.text "responses", .mapping [
    (.text "200", .mapping [(.text "content", .mapping [(.text "application/json", .mapping [
      (.text "schema", titledObject "T" [])])])])])])])])]

def titledDocument : Document := componentDocument [] titledSchemas

/-- The document with that operation and with a third schema of the title. -/
def titledExtension : Document :=
  componentDocument titledPaths (titledSchemas ++ [(.text "C", titledObject "T" [])])

/-- The types by their sources. -/
def sourcedNames (m : Model) : List (String × String) := m.types.map fun t => (t.source.pointer, t.name)

def titledRun : standard.Run titledDocument fun e m => (e.slots.map (·.1), sourcedNames m) where
  seen := (titledDocument.componentIds, [("#/components/schemas/A", "T"), ("#/components/schemas/B", "T_2")])
  seen_eq := by decide +kernel

def titledExtensionRun : standard.Run titledExtension fun _ m => sourcedNames m where
  seen := [("#/components/schemas/A", "T"), ("#/components/schemas/B", "T_2"), ("#/components/schemas/C", "T_3"),
    ("#/paths/~1p/get/responses/200/content/application~1json/schema", "T_4")]
  seen_eq := by decide +kernel

theorem extended_names_titledDocument : ∃ r slots e e' m m', standard.resolver titledDocument = .ok r ∧
    standard.definitions r titledDocument = .ok slots ∧ standard.extraction titledDocument = .ok e ∧
    standard.extraction titledExtension = .ok e' ∧ standard.model e = .ok m ∧ standard.model e' = .ok m' ∧
    sourcedNames m = [("#/components/schemas/A", "T"), ("#/components/schemas/B", "T_2")] ∧
    sourcedNames m' = [("#/components/schemas/A", "T"), ("#/components/schemas/B", "T_2"),
      ("#/components/schemas/C", "T_3"), ("#/paths/~1p/get/responses/200/content/application~1json/schema", "T_4")] ∧
    ∀ k ∈ slots.map (·.1),
      (named e'.slots.graph .rust).names.lookup k = (named e.slots.graph .rust).names.lookup k ∧
      ∀ m m', standard.model e = .ok m → standard.model e' = .ok m' → ∀ t ∈ m.types, ∀ t' ∈ m'.types,
        t.source = k → t'.source = k → t'.name = t.name := by
  obtain ⟨e, m, he, hm, hseen⟩ := titledRun.spec
  obtain ⟨e', m', he', hm', htypes'⟩ := titledExtensionRun.spec
  obtain ⟨hids, htypes⟩ := Prod.mk.inj hseen
  obtain ⟨r, slots, hr, hslots, -, hgrows, -⟩ := extraction_stages he
  have hd : titledDocument.Extends titledExtension := componentDocument_extends (by decide) (by decide) rfl
  have hcomponents : ∀ k ∈ slots.map (·.1), k ∈ titledDocument.componentIds :=
    fun k hk => hids ▸ (hgrows.isPrefix.map _).subset hk
  exact ⟨r, slots, e, e', m, m', hr, hslots, he, he', hm, hm', htypes, htypes',
    extended_names hd hr hslots he he' fun k hk hnot => absurd (hcomponents k hk) hnot⟩

/-- A component schema that refers to the mapping of all of them, before two of one title. -/
def collectingSchemas : Entries :=
  [(.text "A", .mapping [(.text "$ref", .text "#/components/schemas")]), (.text "B", titledObject "X" []),
    (.text "C", titledObject "X" [])]

def collectingDocument : Document := componentDocument [] collectingSchemas

/-- The document with a component schema that is named like a keyword and refers to the last of the others. -/
def collectingExtension : Document :=
  componentDocument [] (collectingSchemas ++ [(.text "items", .mapping [(.text "$ref", .text "#/components/schemas/C")])])

def collectingRun : standard.Run collectingDocument fun _ m => sourcedNames m where
  seen := [("#/components/schemas/A", "A"), ("#/components/schemas", "Schemas"), ("#/components/schemas/B", "X"),
    ("#/components/schemas/C", "X_2")]
  seen_eq := by decide +kernel

def collectingExtensionRun : standard.Run collectingExtension fun _ m => sourcedNames m where
  seen := [("#/components/schemas/A", "A"), ("#/components/schemas", "Schemas"), ("#/components/schemas/C", "X"),
    ("#/components/schemas/B", "X_2"), ("#/components/schemas/items", "Items")]
  seen_eq := by decide +kernel

/-- The component schema named like a keyword makes the mapping another schema, which opens the last of the others first:
two types change their names. -/
theorem appended_changes_names : collectingDocument.Extends collectingExtension ∧
    ∃ e e' m m', standard.extraction collectingDocument = .ok e ∧ standard.extraction collectingExtension = .ok e' ∧
      standard.model e = .ok m ∧ standard.model e' = .ok m' ∧
      sourcedNames m = [("#/components/schemas/A", "A"), ("#/components/schemas", "Schemas"),
        ("#/components/schemas/B", "X"), ("#/components/schemas/C", "X_2")] ∧
      sourcedNames m' = [("#/components/schemas/A", "A"), ("#/components/schemas", "Schemas"),
        ("#/components/schemas/C", "X"), ("#/components/schemas/B", "X_2"), ("#/components/schemas/items", "Items")] := by
  obtain ⟨e, m, he, hm, htypes⟩ := collectingRun.spec
  obtain ⟨e', m', he', hm', htypes'⟩ := collectingExtensionRun.spec
  exact ⟨componentDocument_extends (by decide) (by decide) rfl, e, e', m, m', he, he', hm, hm', htypes, htypes'⟩

end ContractBindings.Generator
