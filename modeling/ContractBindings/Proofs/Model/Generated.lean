import ContractBindings.Proofs.Model.Assembly

/-!
# What a model generates

A model generates a definition if one of its types has the definition's schema as its source. Where the identities of
the definitions differ, it generates exactly those that are not lost (`generates_iff`), each as one type
(`eq_of_source`) under the name that was given to it (`mem_kept_of_source`). No two types share a name (`types_nodup`),
and types use names of types of the model, or names of lost definitions that stand inside generated ones (`types_uses`).
Its errors are one for each definition and each operation that it leaves out (`ofGraph_errors`).
-/

namespace ContractBindings

open Naming Lowering

/-- A type of the model was made of the schema with an identity. -/
def Model.Generates (m : Model) (id : SchemaId) : Prop := ∃ t ∈ m.types, t.source = id

theorem SchemaGraph.defines_iff {g : SchemaGraph} {id : SchemaId} :
    g.defines id = true ↔ id ∈ g.definitions.map (·.id) := by
  rw [SchemaGraph.defines, SchemaGraph.get?, List.find?_isSome, List.mem_map]
  simp only [beq_iff_eq]

namespace Lowering

variable {g : SchemaGraph} {target : Target} {config : Config}

/-- The names of the types of definitions are taken before any operation, and are capitalized. -/
theorem assembled_claimed {t : TypeDef} (ht : t ∈ (assembled g target config).model.types) :
    snakeCase t.name ∈ (assembled g target config).registry.taken ∧ Capitalized t.name := by
  have hfresh : Drafts.Fresh (start g target) (drafted g target config) :=
    lowerDefinitions_fresh capitalized_names rfl g.definitions
  have hregistry : (assembled g target config).registry = (drafted g target config).registry :=
    (foldl_commit (kept g target config) _).1
  rw [assembled_types] at ht
  rw [hregistry]
  obtain ⟨p, hp, ht⟩ := List.mem_flatMap.1 ht
  rcases mem_kept_types hp ht with ⟨-, hname, -⟩ | ⟨hinner, -⟩
  · have hmem := mem_of_lookup hname
    exact ⟨hfresh.registry_le ((named_spec g target).1.claimed _ hmem).2, (named_spec g target).1.capital _ hmem⟩
  · refine ⟨(hfresh.claimed t hinner).2, ?_⟩
    obtain ⟨d, hd, failed, r, node, name, -, -, hname, -, body, types, hg, htypes, -⟩ := kept_defines hp
    rw [htypes] at ht
    rcases List.mem_cons.1 ht with rfl | ht
    · exact (named_spec g target).1.capital _ (mem_of_lookup hname)
    · exact hg.capital t ht

section Base

variable (hids : (g.definitions.map (·.id)).Nodup)

include hids

/-- The type of a definition that is not lost. -/
theorem mem_assembled_of_not_lost {id : SchemaId} {name : String} (hname : (named g target).names.lookup id = some name)
    (hlost : id ∉ lost g target config) : ∃ t ∈ (assembled g target config).model.types, t.source = id ∧ t.name = name ∧
      ∃ d ∈ g.definitions, ∃ failed node, d.id = id ∧ d.node = .ok node ∧
        ((context g target config).about failed id).Embodies node t.body := by
  have hsome : ((named g target).names.lookup id).isSome = true := by simp [hname]
  obtain ⟨d, hd, rfl, -⟩ := lookup_names_isSome_iff.1 hsome
  have hk := (mem_kept_iff hids (List.mem_map_of_mem hd)).2 hlost
  obtain ⟨p, hp, hpid⟩ := List.mem_map.1 hk
  obtain ⟨d', hd', failed, r, node, name', hid', hnode, hname', -, body, types, -, htypes, -, hembodies⟩ :=
    kept_defines hp
  rw [hpid, hname] at hname'
  cases hname'
  refine ⟨⟨name, p.1, node.description, body⟩, ?_, hpid, rfl, d', hd', failed, node, hid'.trans hpid, hnode, ?_⟩
  · rw [assembled_types, List.mem_flatMap]
    exact ⟨p, hp, by simp [htypes]⟩
  · exact hpid ▸ hembodies

/-- The names that the types of a kept definition use. -/
theorem kept_uses {p : SchemaId × Draft} (hp : p ∈ kept g target config) {t : TypeDef} (ht : t ∈ p.2.types) {n : String}
    (hn : n ∈ t.uses) : n ∈ (assembled g target config).model.types.map (·.name) ∨
      ∃ d ∈ g.definitions, ∃ node inner, d.id = p.1 ∧ d.node = .ok node ∧ node.shape.Holds inner ∧
        inner.id ∈ lost g target config ∧ (named g target).names.lookup inner.id = some n := by
  obtain ⟨hpl, -⟩ := kept_traced hp
  obtain ⟨d, hd, failed, r, node, name, hid, hnode, hname, -, body, types, hg, htypes, hbody, -⟩ := kept_defines hp
  have hknown : Known ((context g target config).about failed p.1) node.shape.Mentions p.2 n := by
    rw [htypes] at ht
    rcases List.mem_cons.1 ht with rfl | ht
    · exact hbody n hn
    · exact hg.uses t ht n hn
  have hmain {id : SchemaId} (hname : (named g target).names.lookup id = some n) (hl : id ∉ lost g target config) :
      n ∈ (assembled g target config).model.types.map (·.name) := by
    obtain ⟨t, ht, -, htn, -⟩ := mem_assembled_of_not_lost hids hname hl
    exact List.mem_map.2 ⟨t, ht, htn⟩
  rcases hknown with h | h | ⟨id, hmention, hname, -⟩
  · left
    have hinline : p.2.inlineNames = types.map fun t => (t.source, t.name) := by
      simpa [Draft.start] using hg.inlineNames_eq
    rw [hinline, List.map_map] at h
    obtain ⟨t', ht', rfl⟩ := List.mem_map.1 h
    rw [assembled_types]
    exact List.mem_map.2 ⟨t', List.mem_flatMap.2 ⟨p, hp, htypes ▸ List.mem_cons_of_mem _ ht'⟩, rfl⟩
  · cases h
  · by_cases hl : id ∈ lost g target config
    · rcases hmention with href | ⟨inner, hholds, rfl⟩
      · rw [← SchemaNode.references_eq] at href
        exact absurd hl (not_lost_of_reference hids hd hnode (hid ▸ hpl) href)
      · exact .inr ⟨d, hd, node, inner, hid, hnode, hholds, hl, hname⟩
    · exact .inl (hmain hname hl)

/-- The model with all definitions is sound. -/
theorem assembled_sound :
    Assembly.Sound (operationContext g target config) (assembled g target config) (assembled g target config) := by
  obtain ⟨-, -, hoperations, -, hinline⟩ := foldl_commit (kept g target config)
    ⟨(drafted g target config).registry, [],
      ⟨[], [], (drafted g target config).diagnostics ++ (spreaded g target config).2⟩⟩
  constructor
  case registry_le => exact .refl _
  case nodup =>
    rw [assembled_types]
    exact kept_types_nodup hids
  case taken => exact fun t ht => (assembled_claimed ht).1
  case capital => exact fun t ht => (assembled_claimed ht).2
  case recorded =>
    intro n hn
    obtain ⟨x, hx, rfl⟩ := List.mem_map.1 hn
    rcases hinline x hx with hx | ⟨p, hp, hx⟩
    · cases hx
    · obtain ⟨d, hd, failed, r, node, name, -, -, -, -, body, types, hg, htypes, -⟩ := kept_defines hp
      have heq : p.2.inlineNames = types.map fun t => (t.source, t.name) := by
        simpa [Draft.start] using hg.inlineNames_eq
      rw [heq] at hx
      obtain ⟨t, ht, rfl⟩ := List.mem_map.1 hx
      rw [assembled_types]
      exact List.mem_map.2 ⟨t, List.mem_flatMap.2 ⟨p, hp, htypes ▸ List.mem_cons_of_mem _ ht⟩, rfl⟩
  case types => exact ⟨[], by simp, by simp⟩
  case operations =>
    intro o ho
    rw [assembled, hoperations] at ho
    cases ho

end Base

/-- The name of a definition that the model leaves out, while the node of that definition stands inside a definition that
it generates. -/
def LostInside (g : SchemaGraph) (target : Target) (m : Model) (name : String) : Prop :=
  ∃ d ∈ g.definitions, ∃ node inner, d.node = .ok node ∧ m.Generates d.id ∧ node.shape.Holds inner ∧
    g.defines inner.id = true ∧ ¬ m.Generates inner.id ∧ (named g target).names.lookup inner.id = some name

section Whole

variable (hids : (g.definitions.map (·.id)).Nodup) (operations : List Operation)

include hids

/-- The model with all operations is sound. -/
theorem operations_sound : Assembly.Sound (operationContext g target config) (assembled g target config)
    (lowerOperations (operationContext g target config) (assembled g target config) operations) := by
  refine lowerOperations_sound (assembled_sound hids) (fun id name hname hl => ?_) operations
  obtain ⟨t, ht, -, htn, -⟩ := mem_assembled_of_not_lost hids hname hl
  exact List.mem_map.2 ⟨t, ht, htn⟩

variable (target config) in
/-- The types of a model are those of its definitions, then those that its operations add. -/
theorem ofGraph_types : ∃ added,
    (Model.ofGraph g operations target config).types = (assembled g target config).model.types ++ added ∧
      ∀ t ∈ added, g.defines t.source = false ∧ t.body.alias? = none ∧
        snakeCase t.name ∉ (assembled g target config).registry.taken ∧
          ∀ n ∈ t.uses, n ∈ (Model.ofGraph g operations target config).types.map (·.name) := by
  rw [ofGraph_eq]
  obtain ⟨added, hadded, hnew⟩ := (operations_sound hids operations).types
  refine ⟨added, hadded, fun t ht => ?_⟩
  obtain ⟨hinline, halias, hbetween, huses⟩ := hnew t ht
  exact ⟨hinline, halias, hbetween.1, huses⟩

/-- A type made of a definition is that of a definition that is kept, under the definition's name. -/
theorem mem_kept_of_source {t : TypeDef} (ht : t ∈ (Model.ofGraph g operations target config).types)
    (hdefines : g.defines t.source = true) :
    t.source ∉ lost g target config ∧ (named g target).names.lookup t.source = some t.name := by
  obtain ⟨added, hadded, hnew⟩ := ofGraph_types target config hids operations
  rw [hadded] at ht
  rcases List.mem_append.1 ht with ht | ht
  · rw [assembled_types] at ht
    obtain ⟨p, hp, ht⟩ := List.mem_flatMap.1 ht
    rcases mem_kept_types hp ht with ⟨hsource, hname, -⟩ | ⟨-, hinline⟩
    · exact hsource ▸ ⟨(kept_traced hp).1, hname⟩
    · exact absurd hdefines (by simp [hinline])
  · have hinline : g.defines t.source = false := (hnew t ht).1
    exact absurd hdefines (by simp [hinline])

/-- A definition is generated exactly if it is not lost. -/
theorem generates_iff {id : SchemaId} (hid : id ∈ g.definitions.map (·.id)) :
    (Model.ofGraph g operations target config).Generates id ↔ id ∉ lost g target config := by
  constructor
  · rintro ⟨t, ht, rfl⟩
    exact (mem_kept_of_source hids operations ht (SchemaGraph.defines_iff.2 hid)).1
  · intro hl
    obtain ⟨p, hp, rfl⟩ := List.mem_map.1 ((mem_kept_iff hids hid).2 hl)
    obtain ⟨_, -, failed, r, node, name, -, -, hname, -⟩ := kept_defines hp
    obtain ⟨t, ht, hts, -⟩ := mem_assembled_of_not_lost hids hname hl
    obtain ⟨added, hadded, -⟩ := ofGraph_types target config hids operations
    refine ⟨t, ?_, hts⟩
    rw [hadded]
    exact List.mem_append_left _ ht

/-- The names of types differ in their snake forms. -/
theorem types_forms_nodup : ((Model.ofGraph g operations target config).types.map fun t => snakeCase t.name).Nodup := by
  rw [ofGraph_eq]
  exact (operations_sound hids operations).nodup

theorem types_nodup : ((Model.ofGraph g operations target config).types.map (·.name)).Nodup := by
  refine List.Nodup.of_map snakeCase ?_
  rw [List.map_map]
  exact types_forms_nodup hids operations

theorem types_capitalized : ∀ t ∈ (Model.ofGraph g operations target config).types, Capitalized t.name := by
  rw [ofGraph_eq]
  exact (operations_sound hids operations).capital

/-- A definition is the source of one type at most. -/
theorem eq_of_source {t t' : TypeDef} (ht : t ∈ (Model.ofGraph g operations target config).types)
    (ht' : t' ∈ (Model.ofGraph g operations target config).types) (hdefines : g.defines t.source = true)
    (hsource : t'.source = t.source) : t' = t := by
  refine List.inj_on_of_nodup_map (types_nodup hids operations) ht' ht ?_
  have h := (mem_kept_of_source hids operations ht hdefines).2
  have h' := (mem_kept_of_source hids operations ht' (hsource ▸ hdefines)).2
  rw [hsource, h] at h'
  exact (Option.some.inj h').symm

/-- A type with the snake form of a definition's name is the type of the definition. -/
theorem source_of_form {id : SchemaId} {name : String} (hname : (named g target).names.lookup id = some name)
    {t : TypeDef} (ht : t ∈ (Model.ofGraph g operations target config).types)
    (hform : snakeCase name = snakeCase t.name) : t.source = id := by
  obtain ⟨added, hadded, hnew⟩ := ofGraph_types target config hids operations
  have hfresh : Drafts.Fresh (start g target) (drafted g target config) :=
    lowerDefinitions_fresh capitalized_names rfl g.definitions
  have htaken : snakeCase t.name ∈ (named g target).registry.taken :=
    hform ▸ ((named_spec g target).1.claimed _ (mem_of_lookup hname)).2
  rw [hadded] at ht
  rcases List.mem_append.1 ht with ht | ht
  · rw [assembled_types] at ht
    obtain ⟨p, hp, ht⟩ := List.mem_flatMap.1 ht
    rcases mem_kept_types hp ht with ⟨hsource, hown, -⟩ | ⟨hinner, -⟩
    · exact hsource.trans (eq_of_lookup_names hname hown hform).symm
    · exact absurd htaken (hfresh.claimed t hinner).1
  · obtain ⟨hregistry, -⟩ := foldl_commit (kept g target config)
      ⟨(drafted g target config).registry, [],
        ⟨[], [], (drafted g target config).diagnostics ++ (spreaded g target config).2⟩⟩
    exact absurd (hregistry ▸ hfresh.registry_le htaken) (hnew t ht).2.2.1

/-- The name of a definition that is lost is the name of no type. -/
theorem lost_name {id : SchemaId} {name : String} (hname : (named g target).names.lookup id = some name)
    (hl : id ∈ lost g target config) : name ∉ (Model.ofGraph g operations target config).types.map (·.name) := by
  intro hn
  obtain ⟨t, ht, rfl⟩ := List.mem_map.1 hn
  have hsource := source_of_form hids operations hname ht rfl
  obtain ⟨d, hd, rfl, -⟩ := lookup_names_isSome_iff.1 (Option.isSome_iff_exists.2 ⟨_, hname⟩)
  exact (generates_iff hids operations (List.mem_map_of_mem hd)).1 ⟨t, ht, hsource⟩ hl

/-- A type uses names of types of the model, or names of definitions that it leaves out. -/
theorem types_uses {t : TypeDef} (ht : t ∈ (Model.ofGraph g operations target config).types) {n : String}
    (hn : n ∈ t.uses) : n ∈ (Model.ofGraph g operations target config).types.map (·.name) ∨
      LostInside g target (Model.ofGraph g operations target config) n := by
  obtain ⟨added, hadded, hnew⟩ := ofGraph_types target config hids operations
  have ht' := ht
  rw [hadded] at ht'
  rcases List.mem_append.1 ht' with ht' | ht'
  · rw [assembled_types] at ht'
    obtain ⟨p, hp, ht'⟩ := List.mem_flatMap.1 ht'
    rcases kept_uses hids hp ht' hn with h | ⟨d, hd, node, inner, hid, hnode, hholds, hl, hname⟩
    · left
      rw [hadded, List.map_append]
      exact List.mem_append_left _ h
    · right
      have hsome : ((named g target).names.lookup inner.id).isSome = true := by simp [hname]
      obtain ⟨d', hd', hid', -⟩ := lookup_names_isSome_iff.1 hsome
      have hmem : inner.id ∈ g.definitions.map (·.id) := hid' ▸ List.mem_map_of_mem hd'
      refine ⟨d, hd, node, inner, hnode, ?_, hholds, SchemaGraph.defines_iff.2 hmem, ?_, hname⟩
      · exact (generates_iff hids operations (List.mem_map_of_mem hd)).2 (hid ▸ (kept_traced hp).1)
      · exact fun h => (generates_iff hids operations hmem).1 h hl
  · exact .inl ((hnew t ht').2.2.2 n hn)

/-- The names of types are none that the target reserves. -/
theorem types_unreserved {t : TypeDef} (ht : t ∈ (Model.ofGraph g operations target config).types) :
    snakeCase t.name ∉ (Registry.reserving target.capability.reserved).taken := by
  obtain ⟨added, hadded, hnew⟩ := ofGraph_types target config hids operations
  have hnames := (named_spec g target).1
  have hfresh : Drafts.Fresh (start g target) (drafted g target config) :=
    lowerDefinitions_fresh capitalized_names rfl g.definitions
  rw [hadded] at ht
  rcases List.mem_append.1 ht with ht | ht
  · rw [assembled_types] at ht
    obtain ⟨p, hp, ht⟩ := List.mem_flatMap.1 ht
    rcases mem_kept_types hp ht with ⟨-, hname, -⟩ | ⟨hinner, -⟩
    · exact (hnames.claimed _ (mem_of_lookup hname)).1
    · exact fun hreserved => (hfresh.claimed t hinner).1 (hnames.registry_le hreserved)
  · obtain ⟨hregistry, -⟩ := foldl_commit (kept g target config)
      ⟨(drafted g target config).registry, [],
        ⟨[], [], (drafted g target config).diagnostics ++ (spreaded g target config).2⟩⟩
    exact fun hreserved => (hnew t ht).2.2.1 (hregistry ▸ hfresh.registry_le (hnames.registry_le hreserved))

/-- The names that types use are capitalized, and none that the target reserves. -/
theorem uses_unreserved {t : TypeDef} (ht : t ∈ (Model.ofGraph g operations target config).types) {n : String}
    (hn : n ∈ t.uses) :
    Capitalized n ∧ snakeCase n ∉ (Registry.reserving target.capability.reserved).taken := by
  rcases types_uses hids operations ht hn with hn | ⟨d, -, node, inner, -, -, -, -, -, hname⟩
  · obtain ⟨u, hu, rfl⟩ := List.mem_map.1 hn
    exact ⟨types_capitalized hids operations u hu, types_unreserved hids operations hu⟩
  · have hnames := (named_spec g target).1
    have hmem := mem_of_lookup hname
    exact ⟨hnames.capital _ hmem, (hnames.claimed _ hmem).1⟩

end Whole

/-! ## The errors of a model -/

theorem kept_warnings {p : SchemaId × Draft} (hp : p ∈ kept g target config) : ∀ d ∈ p.2.warnings, d.isError = false := by
  obtain ⟨_, -, _, r, _, _, -, -, -, -, body, types, hg, -, -⟩ := kept_defines hp
  obtain ⟨w, hw, hwarn⟩ := hg.warnings
  have heq : p.2.warnings = w := by simpa [Draft.start] using hw
  exact heq ▸ hwarn

/-- The errors of a model are one for each definition that is lost, then one for each operation that is left out. -/
theorem ofGraph_errors (g : SchemaGraph) (target : Target) (config : Config) (operations : List Operation) :
    ∃ bad, ((Model.ofGraph g operations target config).diagnostics.filter Diagnostic.isError).map (·.unit) =
        (lost g target config).reverse.map (·.pointer) ++ bad ∧
      ((Model.ofGraph g operations target config).operations.map (·.id) ++ bad).Perm (operations.map (·.id)) := by
  obtain ⟨-, -, hoperations, hdiagnostics, -⟩ := foldl_commit (kept g target config)
    ⟨(drafted g target config).registry, [],
      ⟨[], [], (drafted g target config).diagnostics ++ (spreaded g target config).2⟩⟩
  obtain ⟨bad, diagnostics, h⟩ :=
    lowerOperations_accounts (operationContext g target config) (assembled g target config) operations
  refine ⟨bad, ?_, ?_⟩
  · have hnone : ((kept g target config).flatMap (·.2.warnings)).filter Diagnostic.isError = [] := by
      rw [List.filter_eq_nil_iff]
      intro d hd
      obtain ⟨p, hp, hd⟩ := List.mem_flatMap.1 hd
      simp [kept_warnings hp d hd]
    rw [ofGraph_eq, h.diagnostics_eq, assembled, hdiagnostics, List.filter_append, List.map_append, h.errors,
      List.filter_append, hnone, List.append_nil, List.filter_eq_self.2 (reports_lost g target config).2,
      (reports_lost g target config).1]
  · have hnil : (assembled g target config).model.operations = [] := hoperations
    rw [ofGraph_eq]
    simpa [hnil] using h.perm

end Lowering

end ContractBindings
