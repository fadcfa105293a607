import Mathlib.Data.List.Pairwise
import ContractBindings.Proofs.Model.Layers
import ContractBindings.Proofs.Model.Propagation
import ContractBindings.Proofs.Schema.Reaching

/-!
# The types of a model are layered

In a coherent graph nothing in a definition is nested, so the types of one definition are layered; they store only types
inside it and definitions that it leads to and that do not lead back (`kept_layers`). No chain of such definitions comes
back to its start, so the types of all definitions are layered together (`assembled_layered`). The types of an operation
are new and are put on top of them, if its schemas are unnested (`lowerOperations_layered`).
-/

namespace ContractBindings

open Naming

/-- A definition leads over references to another one that does not lead back. -/
def SchemaGraph.Precedes (g : SchemaGraph) (x y : SchemaId) : Prop :=
  Relation.TransGen g.Refers x y ∧ ¬ Relation.TransGen g.Refers y x

namespace SchemaGraph.Precedes

variable {g : SchemaGraph} {x y z : SchemaId}

theorem irrefl (x : SchemaId) : ¬ g.Precedes x x := fun h => h.2 h.1

theorem trans (h : g.Precedes x y) (h' : g.Precedes y z) : g.Precedes x z :=
  ⟨h.1.trans h'.1, fun hback => h'.2 (hback.trans h.1)⟩

end SchemaGraph.Precedes

namespace Lowering

variable {g : SchemaGraph} {target : Target} {config : Config}

/-! ## Definitions -/

/-- A definition that is referred to and is not recursive does not lead back. -/
theorem precedes_of_reference (hg : g.Coherent) {x y : SchemaId} {failed : List SchemaId} (hxy : g.Refers x y)
    (hcloses : ((context g target config).about failed x).closes y = false) : g.Precedes x y := by
  refine ⟨.single hxy, fun hback => ?_⟩
  have hreachable : x ∈ Edges.reachable g.edges y := by
    refine Edges.mem_reachable_iff.2 (Relation.TransGen.mono ?_ _ _ hback)
    rintro a b ⟨d, hd, rfl, node, hnode, hb⟩
    exact (SchemaGraph.mem_edges_iff hg.nodup hd hnode).2 hb
  have hlookup : (context g target config).reachable.lookup y = some (Edges.reachable g.edges y) := by
    obtain ⟨d, hd, rfl⟩ := List.mem_map.1 (hg.targets hxy)
    refine lookup_of_mem ?_ (List.mem_map.2 ⟨d, hd, rfl⟩)
    rw [context, List.map_map]
    exact hg.nodup
  simp only [Context.closes, Context.about, Option.elim, Bool.or_eq_false_iff, hlookup, Option.getD_some] at hcloses
  have hfound : (Edges.reachable g.edges y).contains x = true := by simpa using hreachable
  rw [hcloses.2] at hfound
  cases hfound

/-- A draft that starts after the definitions are named knows only their names. -/
theorem registered_start {r : Registry} (hle : (named g target).registry.Le r) (failed : List SchemaId)
    (id : SchemaId) : (Draft.start r).Registered ((context g target config).about failed id) where
  definitions p hp := hle ((named_spec g target).1.claimed p hp).2
  before p hp := by cases hp
  recorded p hp := by cases hp

/-- What is stored in the draft of a definition: a type inside it, or a definition that it leads to and that does not
lead back. -/
theorem held_cases (hg : g.Coherent) {d : Definition} (hd : d ∈ g.definitions) {node : SchemaNode}
    (hnode : d.node = .ok node) {failed : List SchemaId} {r : Registry} (hle : (named g target).registry.Le r)
    {types : List TypeDef} {draft : Draft} {near : SchemaId → Prop} (hadds : Draft.Adds types (Draft.start r) draft)
    {n : String} (hheld : Held ((context g target config).about failed d.id) near draft n)
    (hknown : Known ((context g target config).about failed d.id) node.shape.Mentions draft n) :
    (∃ t ∈ types, t.name = n) ∨ ∃ y, (named g target).names.lookup y = some n ∧ g.Precedes d.id y := by
  have hinline : draft.inlineNames = types.map fun t => (t.source, t.name) := by
    simpa [Draft.start] using hadds.inlineNames_eq
  rcases hheld with ⟨id, -, h | h⟩ | ⟨y, hy, hcloses⟩
  · cases h
  · rw [hinline] at h
    obtain ⟨t, ht, heq⟩ := List.mem_map.1 h
    exact .inl ⟨t, ht, (Prod.mk.inj heq).2⟩
  · refine .inr ⟨y, hy, precedes_of_reference hg ?_ hcloses⟩
    rcases hknown with h | h | ⟨id, hmention, hid, -⟩
    · -- a name that was recorded on the way is new and not that of a definition
      rw [hinline, List.map_map] at h
      obtain ⟨t, ht, rfl⟩ := List.mem_map.1 h
      have htaken := ((named_spec g target).1.claimed _ (mem_of_lookup hy)).2
      exact absurd (hle htaken) (hadds.claimed t ht).1
    · cases h
    · obtain rfl : id = y := lookup_names_inj hid hy
      rcases hmention with href | ⟨m, hm, rfl⟩
      · exact ⟨d, hd, rfl, node, hnode, by rwa [SchemaNode.references_eq]⟩
      · obtain ⟨d', hd', heq, -⟩ := lookup_names_isSome_iff.1 (Option.isSome_iff_exists.2 ⟨n, hid⟩)
        have hinline := hg.inline ⟨d, hd, node, hnode, hm⟩
        rw [← heq, SchemaGraph.defines_iff.2 (List.mem_map_of_mem hd')] at hinline
        cases hinline

/-- Nothing in a definition of a coherent graph is nested. -/
theorem unnested_of_coherent (hg : g.Coherent) {d : Definition} (hd : d ∈ g.definitions) {node : SchemaNode}
    (hnode : d.node = .ok node) : node.shape.Unnested :=
  Shape.unnested_of_unique fun _ _ hm hk heq _ => hg.unique ⟨d, hd, node, hnode, hk⟩ ⟨d, hd, node, hnode, hm⟩ heq

/-- The types of a kept definition are layered, and store each other or definitions after it. -/
theorem kept_layers (hg : g.Coherent) {p : SchemaId × Draft} (hp : p ∈ kept g target config) :
    Layered p.2.types ∧ ∀ t ∈ p.2.types, ∀ n ∈ t.body.stores,
      (∃ u ∈ p.2.types, u.name = n) ∨ ∃ y, (named g target).names.lookup y = some n ∧ g.Precedes p.1 y := by
  obtain ⟨-, d, hd, failed, r, node, name, hid, -, hle, hl⟩ := kept_traced hp
  obtain ⟨body, types, hgrows, htypes, huses, -⟩ := hl.defines capitalized_names
  have hheads := (lowerDefinition_layers ((context g target config).about failed d.id) d.id name
    (unnested_of_coherent hg hd hl.node_eq) (registered_start hle failed d.id)).answer hl.run_eq
  obtain ⟨t, types', htypes', hstacks, hown⟩ := hheads
  obtain ⟨rfl, rfl⟩ : ⟨name, d.id, node.description, body⟩ = t ∧ types = types' :=
    List.cons.inj (htypes.symm.trans htypes')
  have hcases {n : String} (hheld : Held ((context g target config).about failed d.id) node.shape.Contains p.2 n)
      (hknown : Known ((context g target config).about failed d.id) node.shape.Mentions p.2 n) :
      (∃ t ∈ types, t.name = n) ∨ ∃ y, (named g target).names.lookup y = some n ∧ g.Precedes d.id y :=
    held_cases hg hd hl.node_eq hle hgrows.toAdds hheld hknown
  have hfront (n : String) (hn : n ∈ body.stores) := hcases (hown n hn) (huses n (body.stores_subset_uses hn))
  have hinside (u : TypeDef) (hu : u ∈ types) (n : String) (hn : n ∈ u.body.stores) :=
    hcases (hstacks.stored u hu n hn) (hgrows.uses u hu n (u.body.stores_subset_uses hn))
  -- the definition's own name is older than those inside, and no definition precedes itself
  have hself : ¬ ((∃ t ∈ types, t.name = name) ∨ ∃ y, (named g target).names.lookup y = some name ∧
      g.Precedes d.id y) := by
    rintro (⟨u, hu, rfl⟩ | ⟨y, hy, hprecedes⟩)
    · have htaken := ((named_spec g target).1.claimed _ (mem_of_lookup hl.name_eq)).2
      exact (hgrows.claimed u hu).1 (hle htaken)
    · obtain rfl := lookup_names_inj hl.name_eq hy
      exact hprecedes.irrefl
  rw [htypes, ← hid]
  refine ⟨hstacks.layered.cons (fun hn => hself (hfront name hn)) fun u hu hn => hself (hinside u hu name hn), ?_⟩
  intro u hu n hn
  have hmem : (∃ t ∈ types, t.name = n) ∨ ∃ y, (named g target).names.lookup y = some n ∧ g.Precedes d.id y := by
    rcases List.mem_cons.1 hu with rfl | hu
    · exact hfront n hn
    · exact hinside u hu n hn
  exact hmem.imp_left fun ⟨t, ht, heq⟩ => ⟨t, List.mem_cons_of_mem _ ht, heq⟩

/-- A name of a type is that of one kept draft only. -/
theorem kept_eq_of_name (hg : g.Coherent) {p q : SchemaId × Draft} (hp : p ∈ kept g target config)
    (hq : q ∈ kept g target config) {t u : TypeDef} (ht : t ∈ p.2.types) (hu : u ∈ q.2.types) (h : t.name = u.name) :
    p = q := by
  have hnodup : (((kept g target config).flatMap (·.2.types)).map fun t => snakeCase t.name).Nodup :=
    kept_types_nodup hg.nodup
  rw [List.map_flatMap, List.nodup_flatMap] at hnodup
  have hform : snakeCase t.name ∈ q.2.types.map fun t => snakeCase t.name := h ▸ List.mem_map_of_mem hu
  have : Std.Symm (Function.onFun List.Disjoint fun a : SchemaId × Draft => a.2.types.map fun t => snakeCase t.name) :=
    ⟨fun _ _ h _ hy hx => h hx hy⟩
  by_contra hne
  exact hnodup.2.forall hp hq hne (List.mem_map_of_mem ht) hform

/-- The types of all kept definitions are layered. -/
theorem assembled_layered (hg : g.Coherent) : Layered (assembled g target config).model.types := by
  rw [assembled_types]
  refine Layered.flatMap (fun p q => g.Precedes p.1 q.1) (fun p hp => (kept_layers hg hp).1) ?_ ?_ ?_ ?_
  · exact fun p hp q hq t ht u hu h => kept_eq_of_name hg hp hq ht hu h
  · exact fun p => SchemaGraph.Precedes.irrefl p.1
  · exact fun h h' => h.trans h'
  · intro p hp q hq t ht u hu hn
    rcases (kept_layers hg hp).2 t ht u.name hn with ⟨t', ht', heq⟩ | ⟨y, hy, hprecedes⟩
    · exact .inl (kept_eq_of_name hg hp hq ht' hu heq)
    · rcases mem_kept_types hq hu with ⟨-, hname, -⟩ | ⟨hinner, -⟩
      · exact .inr (lookup_names_inj hname hy ▸ hprecedes)
      · -- the types inside definitions have newer names than the definitions
        have hfresh : Drafts.Fresh (start g target) (drafted g target config) :=
          lowerDefinitions_fresh capitalized_names rfl g.definitions
        have htaken := ((named_spec g target).1.claimed _ (mem_of_lookup hy)).2
        exact absurd htaken (hfresh.claimed u hinner).1

/-! ## Operations -/

/-- The types of a model so far are layered, and the names that they store, and all that are recorded, are taken. -/
structure Assembly.Stacked (c : Context) (a : Assembly) : Prop where
  layered : Layered a.model.types
  stored : ∀ t ∈ a.model.types, ∀ n ∈ t.body.stores, snakeCase n ∈ a.registry.taken
  definitions : ∀ p ∈ c.names, snakeCase p.2 ∈ a.registry.taken
  recorded : ∀ p ∈ a.inlineNames, snakeCase p.2 ∈ a.registry.taken

/-- Names that are taken stay taken. -/
theorem Assembly.Stacked.mono {c : Context} {a a' : Assembly} (h : a.Stacked c)
    (htypes : a'.model.types = a.model.types) (hinline : a'.inlineNames = a.inlineNames)
    (hle : a.registry.Le a'.registry) : a'.Stacked c where
  layered := htypes ▸ h.layered
  stored t ht n hn := hle (h.stored t (htypes ▸ ht) n hn)
  definitions p hp := hle (h.definitions p hp)
  recorded p hp := hle (h.recorded p (hinline ▸ hp))

theorem assembled_stacked (hg : g.Coherent) :
    (assembled g target config).Stacked (operationContext g target config) := by
  have hsound : Assembly.Sound (operationContext g target config) (assembled g target config)
      (assembled g target config) := assembled_sound hg.nodup
  have hfresh : Drafts.Fresh (start g target) (drafted g target config) :=
    lowerDefinitions_fresh capitalized_names rfl g.definitions
  have hregistry : (assembled g target config).registry = (drafted g target config).registry := (foldl_commit _ _).1
  have hnames : ∀ p ∈ (named g target).names, snakeCase p.2 ∈ (assembled g target config).registry.taken := by
    intro p hp
    rw [hregistry]
    exact hfresh.registry_le ((named_spec g target).1.claimed p hp).2
  constructor
  case layered => exact assembled_layered hg
  case definitions => exact hnames
  case stored =>
    intro t ht n hn
    have ht' := ht
    rw [assembled_types] at ht'
    obtain ⟨p, hp, ht'⟩ := List.mem_flatMap.1 ht'
    rcases (kept_layers hg hp).2 t ht' n hn with ⟨u, hu, rfl⟩ | ⟨y, hy, -⟩
    · refine hsound.taken u ?_
      rw [assembled_types]
      exact List.mem_flatMap.2 ⟨p, hp, hu⟩
    · exact hnames (y, n) (mem_of_lookup hy)
  case recorded =>
    intro p hp
    obtain ⟨t, ht, heq⟩ := List.mem_map.1 (hsound.recorded p.2 (List.mem_map_of_mem hp))
    exact heq ▸ hsound.taken t ht

/-- The types of operations are layered with those before, where the schemas of operations are unnested or stand for
definitions. -/
theorem lowerOperations_layered {c : Context} {base : Assembly} (hbase : base.Stacked c) (os : List Operation)
    (hos : ∀ o ∈ os, ∀ n ∈ o.schemas, c.graph.defines n.id = false → n.Unnested) :
    (lowerOperations c base os).Stacked c := by
  refine lowerOperations_run (I := fun before a =>
    (∀ o ∈ before, ∀ n ∈ o.schemas, c.graph.defines n.id = false → n.Unnested) → a.Stacked c) ?_ os [] base
    (fun _ => hbase) hos
  rintro before o a a' ih hstep hbefore
  have h := ih fun o' ho' => hbefore o' (List.mem_append_left _ ho')
  rcases hstep with @⟨operation, draft, hrun⟩ | @⟨e, draft, hrun⟩
  · have hr : (Draft.start a.registry).Registered (c.during a.inlineNames o.id) :=
      ⟨h.definitions, h.recorded, by simp [Draft.start]⟩
    have hlayers := lowerOperation_layers (c.during a.inlineNames o.id) o (hbefore o (by simp))
    obtain ⟨types, hstacks, -⟩ := (hlayers _ hr (by simp)).answer hrun
    obtain rfl : draft.types = types := by simpa [Draft.start] using hstacks.types_eq
    have hr' := hr.adds hstacks.toAdds
    constructor
    case layered =>
      refine h.layered.append hstacks.layered fun t ht t' ht' hn => ?_
      exact (hstacks.claimed t' ht').1 (h.stored t ht _ hn)
    case stored =>
      intro t ht n hn
      rcases List.mem_append.1 ht with ht | ht
      · exact hstacks.registry_le (h.stored t ht n hn)
      · exact (hstacks.stored t ht n hn).taken hr'
    case definitions => exact hr'.definitions
    case recorded =>
      intro p hp
      rcases List.mem_append.1 hp with hp | hp
      · exact hr'.recorded p (List.mem_reverse.1 hp)
      · exact hr'.before p hp
  · obtain ⟨hle, -⟩ := (lowerOperation_lowers _ o (Draft.start a.registry) (by simp)).failure hrun
    exact h.mono rfl rfl hle

/-- No type of the model of a coherent graph stores itself, if the schemas of operations are unnested or stand for
definitions. -/
theorem ofGraph_not_stores_self (hg : g.Coherent) {operations : List Operation}
    (hoperations : ∀ o ∈ operations, ∀ n ∈ o.schemas, g.defines n.id = false → n.Unnested) (t : TypeDef) :
    ¬ Relation.TransGen (Model.ofGraph g operations target config).Stores t t := by
  rw [ofGraph_eq]
  exact Model.not_stores_self (lowerOperations_layered (assembled_stacked hg) operations hoperations).layered t

end Lowering

end ContractBindings
