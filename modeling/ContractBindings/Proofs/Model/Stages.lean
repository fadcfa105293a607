import ContractBindings.Proofs.Model.Definitions

/-!
# The stages of making a model

The model of a schema graph is made in stages: definitions are named (`named`), lowered to drafts (`drafted`), and
failures are spread (`lost`); the drafts of the other definitions are kept (`kept`) and taken into the model
(`assembled`), and operations are lowered in a context that knows what is lost (`operationContext`). Where the
identities of the definitions differ, every definition is kept or lost and not both (`kept_lost_perm`), what is lost has
one error each (`reports_lost`), and no definition that is kept refers to one that is lost (`not_lost_of_reference`).
-/

namespace ContractBindings

open Naming

namespace Lowering

section Stages

variable (g : SchemaGraph) (target : Target) (config : Config)

/-- The names of the definitions. -/
def named : Lowering.Naming :=
  nameDefinitions ⟨Naming.Registry.reserving target.capability.reserved, [], [], []⟩ g.definitions

/-- What lowering the definitions depends on. -/
def context : Context :=
  ⟨g, target, config, g.definitions.map fun d => (d.id, Edges.reachable g.edges d.id), (named g target).names, [],
    (named g target).failed, "", none⟩

/-- Where lowering the definitions starts. -/
def start : Drafts := ⟨(named g target).registry, (named g target).failed, (named g target).diagnostics, []⟩

/-- The drafts of all definitions that could be lowered. -/
def drafted : Drafts := lowerDefinitions (context g target config) (start g target) g.definitions

/-- The failures after spreading, and their further diagnostics. -/
def spreaded : List SchemaId × List Diagnostic :=
  spread g.edges ((drafted g target config).drafts.map (·.1))
    (((drafted g target config).drafts.map (·.1)).length + 1) (drafted g target config).failed

/-- The definitions that are left out of the model. -/
def lost : List SchemaId := (spreaded g target config).1

/-- The drafts of the definitions in the model. -/
def kept : List (SchemaId × Draft) :=
  (drafted g target config).drafts.filter fun (id, _) => !(lost g target config).contains id

/-- The model with all definitions, before its operations. -/
def assembled : Assembly :=
  (kept g target config).foldl (fun a (_, draft) => a.commit draft)
    ⟨(drafted g target config).registry, [],
      ⟨[], [], (drafted g target config).diagnostics ++ (spreaded g target config).2⟩⟩

/-- What lowering the operations depends on. -/
def operationContext : Context := { context g target config with failed := lost g target config }

theorem ofGraph_eq (operations : List Operation) :
    Model.ofGraph g operations target config =
      (lowerOperations (operationContext g target config) (assembled g target config) operations).model := rfl

end Stages

variable {g : SchemaGraph} {target : Target} {config : Config}

/-! ## Names -/

theorem named_spec (g : SchemaGraph) (target : Target) :
    Names (Naming.Registry.reserving target.capability.reserved) (named g target).registry g.definitions
        (named g target).names ∧
      (named g target).failed.reverse = (g.definitions.filter (!·.node.isOk)).map (·.id) ∧
      Reports (named g target).diagnostics (named g target).failed := by
  obtain ⟨names, bad, diagnostics, hn, hf, hd, hnames, hbad, hreports⟩ :=
    nameDefinitions_names ⟨Naming.Registry.reserving target.capability.reserved, [], [], []⟩ g.definitions
  rw [List.nil_append] at hn hd
  rw [List.append_nil] at hf
  rw [named, hn, hf, hd]
  exact ⟨hnames, hbad, hreports⟩

theorem capitalized_names : ∀ p ∈ (context g target config).names, Capitalized p.2 := (named_spec g target).1.capital

/-- The definitions that have a name are those with a canonical form. -/
theorem lookup_names_isSome_iff {id : SchemaId} :
    ((named g target).names.lookup id).isSome = true ↔ ∃ d ∈ g.definitions, d.id = id ∧ d.node.isOk = true := by
  rw [lookup_isSome_iff, (named_spec g target).1.keys]
  simp only [List.mem_map, List.mem_filter]
  exact ⟨fun ⟨d, ⟨hd, hok⟩, hid⟩ => ⟨d, hd, hid, hok⟩, fun ⟨d, hd, hid, hok⟩ => ⟨d, ⟨hd, hok⟩, hid⟩⟩

theorem nameDefinitions_append (more : List Definition) : ∀ (ds : List Definition) (n : Lowering.Naming),
    nameDefinitions n (ds ++ more) = nameDefinitions (nameDefinitions n ds) more
  | [], _ => rfl
  | d :: ds, n => by
    rw [List.cons_append, nameDefinitions, nameDefinitions]
    cases d.node with
    | ok node => exact nameDefinitions_append more ds _
    | error e => exact nameDefinitions_append more ds _

/-- Definitions have the same names if others come after them. -/
theorem lookup_names_of_isPrefix {g g' : SchemaGraph} (target : Target) (h : g.definitions <+: g'.definitions)
    (hids : (g'.definitions.map (·.id)).Nodup) {id : SchemaId} (hid : id ∈ g.definitions.map (·.id)) :
    (named g' target).names.lookup id = (named g target).names.lookup id := by
  obtain ⟨more, hmore⟩ := h
  obtain ⟨names, -, -, hnames, -, -, hspec, -⟩ := nameDefinitions_names (named g target) more
  have heq : (named g' target).names = (named g target).names ++ names := by
    rw [named, ← hmore, nameDefinitions_append]
    exact hnames
  have hlater : names.lookup id = none := by
    rw [lookup_eq_none_iff, hspec.keys]
    rw [← hmore, List.map_append] at hids
    exact fun hlater => (List.nodup_append.1 hids).2.2 id hid id ((List.filter_sublist.map _).subset hlater) rfl
  rw [heq, List.lookup_append, hlater, Option.or_none]

/-- Two definitions do not share the snake form of a name. -/
theorem eq_of_lookup_names {x y : SchemaId} {name name' : String} (hx : (named g target).names.lookup x = some name)
    (hy : (named g target).names.lookup y = some name') (h : snakeCase name = snakeCase name') : x = y := by
  have heq := List.inj_on_of_nodup_map (named_spec g target).1.nodup (mem_of_lookup hx) (mem_of_lookup hy) h
  exact (Prod.mk.inj heq).1

/-- Two definitions do not share a name. -/
theorem lookup_names_inj {x y : SchemaId} {name : String} (hx : (named g target).names.lookup x = some name)
    (hy : (named g target).names.lookup y = some name) : x = y := eq_of_lookup_names hx hy rfl

/-- The lowered definitions are those with a canonical form. -/
theorem lowers_eq {d : Definition} (hd : d ∈ g.definitions) :
    (context g target config).lowers d = d.node.isOk := by
  rw [Context.lowers, Bool.and_eq_left_iff_imp]
  exact fun hok => lookup_names_isSome_iff.2 ⟨d, hd, rfl, hok⟩

/-! ## What is kept and what is lost -/

/-- A draft that is kept comes from lowering a definition that is not lost. -/
theorem kept_traced {p : SchemaId × Draft} (hp : p ∈ kept g target config) :
    p.1 ∉ lost g target config ∧ ∃ d ∈ g.definitions, ∃ failed r node name, d.id = p.1 ∧
      failed ⊆ (drafted g target config).failed ∧ (named g target).registry.Le r ∧
      (context g target config).Lowered d failed r node name (.ok ()) p.2 := by
  obtain ⟨hdraft, hlost⟩ := List.mem_filter.1 hp
  exact ⟨by simpa using hlost, (lowerDefinitions_traced capitalized_names rfl g.definitions).drafts p hdraft⟩

theorem lost_spec (g : SchemaGraph) (target : Target) (config : Config) :
    ∃ new, lost g target config = new ++ (drafted g target config).failed ∧
      Spreads g.edges ((drafted g target config).drafts.map (·.1)) (drafted g target config).failed new
        (spreaded g target config).2 :=
  spread_spreads _ _ _ _

/-- The errors about definitions: one for each that is lost. -/
theorem reports_lost (g : SchemaGraph) (target : Target) (config : Config) :
    Reports ((drafted g target config).diagnostics ++ (spreaded g target config).2) (lost g target config) := by
  obtain ⟨new, hnew, hs⟩ := lost_spec g target config
  obtain ⟨bad, diagnostics, ha⟩ :=
    lowerDefinitions_accounts (c := context g target config) capitalized_names (start g target) g.definitions
  have hd : (drafted g target config).diagnostics = (named g target).diagnostics ++ diagnostics := ha.diagnostics_eq
  have hf : (drafted g target config).failed = bad ++ (named g target).failed := ha.failed_eq
  rw [hnew, hd, hf]
  exact ((named_spec g target).2.2.append ha.reports).append hs.reports

/-- Every definition has a draft or has failed before failures are spread. -/
theorem drafted_failed_perm (g : SchemaGraph) (target : Target) (config : Config) :
    ((drafted g target config).drafts.map (·.1) ++ (drafted g target config).failed).Perm
      (g.definitions.map (·.id)) := by
  obtain ⟨bad, diagnostics, ha⟩ :=
    lowerDefinitions_accounts (c := context g target config) capitalized_names (start g target) g.definitions
  have hf : (drafted g target config).failed = bad ++ (named g target).failed := ha.failed_eq
  have hperm : ((drafted g target config).drafts.map (·.1) ++ bad).Perm
      ((g.definitions.filter (·.node.isOk)).map (·.id)) := by
    have h := ha.perm
    rw [List.filter_congr fun d hd => lowers_eq hd] at h
    exact h
  have herrors : (named g target).failed.Perm ((g.definitions.filter (!·.node.isOk)).map (·.id)) :=
    (List.reverse_perm _).symm.trans (by rw [(named_spec g target).2.1])
  rw [hf, ← List.append_assoc]
  refine (hperm.append herrors).trans ?_
  rw [← List.map_append]
  exact (List.filter_append_perm (·.node.isOk) g.definitions).map (·.id)

section Unique

variable (hids : (g.definitions.map (·.id)).Nodup)

include hids

/-- Every definition is kept or lost, and not both. -/
theorem kept_lost_perm :
    ((kept g target config).map (·.1) ++ lost g target config).Perm (g.definitions.map (·.id)) := by
  have hperm := drafted_failed_perm g target config
  obtain ⟨new, hnew, hs⟩ := lost_spec g target config
  have hnodup := hperm.nodup_iff.2 hids
  rw [List.nodup_append] at hnodup
  obtain ⟨hdrafts, hfailed, hdisjoint⟩ := hnodup
  have hsub : ((kept g target config).map (·.1)).Sublist ((drafted g target config).drafts.map (·.1)) :=
    List.filter_sublist.map _
  have hmem (id : SchemaId) : id ∈ (kept g target config).map (·.1) ↔
      id ∈ (drafted g target config).drafts.map (·.1) ∧ id ∉ lost g target config := by
    simp only [kept, List.mem_map, List.mem_filter]
    constructor
    · rintro ⟨p, ⟨hp, hl⟩, rfl⟩
      exact ⟨⟨p, hp, rfl⟩, by simpa using hl⟩
    · rintro ⟨⟨p, hp, rfl⟩, hl⟩
      exact ⟨p, ⟨hp, by simpa using hl⟩, rfl⟩
  refine (List.perm_ext_iff_of_nodup ?_ hids).2 fun id => ?_
  · refine List.nodup_append.2 ⟨hdrafts.sublist hsub, ?_, fun x hx y hy hxy => ((hmem x).1 hx).2 (hxy ▸ hy)⟩
    rw [hnew]
    exact List.nodup_append.2 ⟨hs.nodup, hfailed, fun x hx y hy hxy => hs.fresh x hx (hxy ▸ hy)⟩
  · rw [List.mem_append, hmem, ← hperm.mem_iff, List.mem_append, hnew, List.mem_append]
    constructor
    · rintro (⟨hd, -⟩ | hn | hf)
      · exact .inl hd
      · exact .inl (hs.subset hn)
      · exact .inr hf
    · rintro (hd | hf)
      · by_cases hl : id ∈ new ∨ id ∈ (drafted g target config).failed
        · exact .inr hl
        · exact .inl ⟨hd, hl⟩
      · exact .inr (.inr hf)

theorem kept_nodup : ((kept g target config).map (·.1)).Nodup :=
  (List.nodup_append.1 ((kept_lost_perm hids).nodup_iff.2 hids)).1

theorem lost_nodup : (lost g target config).Nodup :=
  (List.nodup_append.1 ((kept_lost_perm hids).nodup_iff.2 hids)).2.1

/-- A definition is kept exactly if it is not lost. -/
theorem mem_kept_iff {id : SchemaId} (hid : id ∈ g.definitions.map (·.id)) :
    id ∈ (kept g target config).map (·.1) ↔ id ∉ lost g target config := by
  have hperm : ((kept g target config).map (·.1) ++ lost g target config).Perm _ := kept_lost_perm hids
  have hdisjoint := (List.nodup_append.1 (hperm.nodup_iff.2 hids)).2.2
  constructor
  · exact fun hk hl => hdisjoint id hk id hl rfl
  · intro hl
    rcases List.mem_append.1 (hperm.mem_iff.2 hid) with hk | hl'
    · exact hk
    · exact absurd hl' hl

/-- A definition that is kept refers to none that is lost. -/
theorem not_lost_of_reference {d : Definition} (hd : d ∈ g.definitions) {node : SchemaNode} (hnode : d.node = .ok node)
    (hkept : d.id ∉ lost g target config) {x : SchemaId} (hx : x ∈ node.references) : x ∉ lost g target config := by
  have hclosed : Closed g.edges ((drafted g target config).drafts.map (·.1)) (lost g target config) :=
    spread_closed g.edges _ _ (Spreads.refl _ _ (drafted g target config).failed) (by simp)
  have hmem : d.id ∈ (drafted g target config).drafts.map (·.1) := by
    have hk := (mem_kept_iff hids (List.mem_map_of_mem hd)).2 hkept
    exact (List.filter_sublist.map _).subset hk
  exact hclosed d.id hmem hkept x ((SchemaGraph.mem_edges_iff hids hd hnode).2 hx)

/-- What is lost is no more than it must be: a set contains it that has the definitions without a canonical form, those that
cannot be lowered while only definitions of the set have failed, and those that refer to the set. -/
theorem lost_least {P : SchemaId → Prop} (herror : ∀ d ∈ g.definitions, ∀ e, d.node = .error e → P d.id)
    (hfail : ∀ d ∈ g.definitions, ∀ {failed r node name e draft},
      (context g target config).Lowered d failed r node name (.error e) draft → (∀ t ∈ failed, P t) → P d.id)
    (hrefers : ∀ d ∈ g.definitions, ∀ node, d.node = .ok node → ∀ y ∈ node.references, P y → P d.id) :
    ∀ id ∈ lost g target config, P id := by
  have hdrafted : ∀ id ∈ (drafted g target config).failed, P id := by
    refine (lowerDefinitions_run (c := context g target config)
      (I := fun before s => before ⊆ g.definitions → ∀ id ∈ s.failed, P id) ?_ g.definitions []
      (start g target) ?_) (List.Subset.refl _)
    · rintro before d s s' hs (hno | @⟨node, name, draft, hl⟩ | @⟨node, name, e, draft, hl⟩) hsub
      · exact hs (List.Subset.trans (List.subset_append_left _ _) hsub)
      · exact hs (List.Subset.trans (List.subset_append_left _ _) hsub)
      · have hbefore := hs (List.Subset.trans (List.subset_append_left _ _) hsub)
        intro id hid
        rcases List.mem_cons.1 hid with rfl | hid
        · exact hfail d (hsub (by simp)) hl hbefore
        · exact hbefore id hid
    · intro _ id hid
      have hmem : id ∈ (named g target).failed.reverse := List.mem_reverse.2 hid
      rw [(named_spec g target).2.1] at hmem
      obtain ⟨d, hd, rfl⟩ := List.mem_map.1 hmem
      obtain ⟨hd, hbad⟩ := List.mem_filter.1 hd
      cases hnode : d.node with
      | error e => exact herror d hd e hnode
      | ok node => simp [hnode, Except.isOk, Except.toBool] at hbad
  obtain ⟨new, hnew, hs⟩ := lost_spec g target config
  intro id hid
  rw [hnew] at hid
  rcases List.mem_append.1 hid with hid | hid
  · refine hs.least P hdrafted (fun x hx y hy hbad => ?_) id hid
    obtain ⟨p, hp, rfl⟩ := List.mem_map.1 hx
    obtain ⟨d, hd, _, _, node, _, hdid, -, -, hl⟩ :=
      (lowerDefinitions_traced (c := context g target config) capitalized_names rfl g.definitions).drafts p hp
    rw [← hdid] at hy ⊢
    exact hrefers d hd node hl.node_eq y ((SchemaGraph.mem_edges_iff hids hd hl.node_eq).1 hy) hbad
  · exact hdrafted id hid

end Unique

end Lowering

end ContractBindings
