import Mathlib.Logic.Relation
import ContractBindings.Proofs.Model.Decision
import ContractBindings.Proofs.Model.Generated

/-!
# Failures spread over references exactly

A definition is broken if it has no canonical form, or if schemas without shape are rejected and one stands in it. In a
coherent graph, where nodes are known by their identities and definitions do not stand inside each other, what is lost
is what reaches a broken definition over references: every failure comes from one (`lost_reachesBroken`), and what is
kept is not broken and refers to what is kept (`kept_not_reachesBroken`). So which definitions a model generates depends
neither on their order nor on the operations (`generates_iff_not_reachesBroken`, `generates_perm`).
-/

namespace ContractBindings

/-! ## Broken definitions -/

/-- A shape that is unknown, or a list of items that are. -/
def Shape.IsBare (s : Shape) : Prop := s = .unknown ∨ s = .array none

/-- The definition cannot be generated for what it is, whatever it refers to. -/
def Definition.Broken (config : Config) (d : Definition) : Prop :=
  (∃ e, d.node = .error e) ∨
    config.unknownFields = .reject ∧
      ∃ node, d.node = .ok node ∧ (node.shape.IsBare ∨ ∃ m, node.shape.Holds m ∧ m.shape.IsBare)

namespace SchemaGraph

/-- A definition refers to another one. -/
def Refers (g : SchemaGraph) (x y : SchemaId) : Prop :=
  ∃ d ∈ g.definitions, d.id = x ∧ ∃ node, d.node = .ok node ∧ y ∈ node.references

/-- A broken definition is reached over references, or the definition is broken itself. -/
def ReachesBroken (g : SchemaGraph) (config : Config) (id : SchemaId) : Prop :=
  ∃ d ∈ g.definitions, d.Broken config ∧ Relation.ReflTransGen g.Refers id d.id

/-- A node stands in a definition. -/
def Inside (g : SchemaGraph) (m : SchemaNode) : Prop :=
  ∃ d ∈ g.definitions, ∃ node, d.node = .ok node ∧ node.shape.Holds m

/-- Definitions and the nodes in them are known by their identities, and references lead to definitions. -/
structure Coherent (g : SchemaGraph) : Prop where
  nodup : (g.definitions.map (·.id)).Nodup
  targets : ∀ {x y}, g.Refers x y → y ∈ g.definitions.map (·.id)
  inline : ∀ {m}, g.Inside m → g.defines m.id = false
  unique : ∀ {m m'}, g.Inside m → g.Inside m' → m.id = m'.id → m = m'

variable {g g' : SchemaGraph} {config : Config}

theorem ReachesBroken.of_refers {x y : SchemaId} (hxy : g.Refers x y) (hy : g.ReachesBroken config y) :
    g.ReachesBroken config x := by
  obtain ⟨d, hd, hbroken, hreach⟩ := hy
  exact ⟨d, hd, hbroken, .head hxy hreach⟩

/-! ## The order of definitions -/

theorem refers_of_perm (h : g.definitions.Perm g'.definitions) {x y : SchemaId} (hxy : g.Refers x y) :
    g'.Refers x y := by
  obtain ⟨d, hd, hrest⟩ := hxy
  exact ⟨d, h.mem_iff.1 hd, hrest⟩

theorem ReachesBroken.of_perm (h : g.definitions.Perm g'.definitions) {x : SchemaId}
    (hx : g.ReachesBroken config x) : g'.ReachesBroken config x := by
  obtain ⟨d, hd, hbroken, hreach⟩ := hx
  exact ⟨d, h.mem_iff.1 hd, hbroken, Relation.ReflTransGen.mono (fun _ _ => refers_of_perm h) _ _ hreach⟩

theorem Coherent.of_perm (hg : g.Coherent) (h : g.definitions.Perm g'.definitions) : g'.Coherent := by
  have hinside {m : SchemaNode} (hm : g'.Inside m) : g.Inside m := by
    obtain ⟨d, hd, hrest⟩ := hm
    exact ⟨d, h.mem_iff.2 hd, hrest⟩
  have hids : (g.definitions.map (·.id)).Perm (g'.definitions.map (·.id)) := h.map _
  constructor
  case nodup => exact hids.nodup_iff.1 hg.nodup
  case targets => exact fun hxy => hids.mem_iff.1 (hg.targets (refers_of_perm h.symm hxy))
  case inline =>
    intro m hm
    have hno := hg.inline (hinside hm)
    rw [← Bool.not_eq_true, defines_iff] at hno ⊢
    exact fun hmem => hno (hids.mem_iff.2 hmem)
  case unique => exact fun hm hm' => hg.unique (hinside hm) (hinside hm')

end SchemaGraph

namespace Lowering

/-- A shape is clean if it is bare nowhere, where that is rejected, and all its references can be used. -/
theorem clean_iff_references {c : Context} {s : Shape} :
    c.Clean s ↔ (c.config.unknownFields = .reject → ¬ (s.IsBare ∨ ∃ m, s.Holds m ∧ m.shape.IsBare)) ∧
      ∀ t ∈ s.references, (c.names.lookup t).isSome = true ∧ t ∉ c.failed := by
  constructor
  · refine fun h => ⟨fun hr => ?_, fun t ht => ?_⟩
    · rintro (hs | ⟨m, hm, hs⟩)
      · exact hs.elim (h.admits.shaped hr).1 (h.admits.shaped hr).2
      · exact hs.elim ((h.inside hm).shaped hr).1 ((h.inside hm).shaped hr).2
    · rcases mem_references_iff.1 ht with hs | ⟨m, hm, hs⟩
      · exact h.admits.usable hs
      · exact (h.inside hm).usable hs
  · rintro ⟨hshaped, husable⟩
    refine ⟨⟨fun hr => ?_, fun hs => husable _ (mem_references_iff.2 (.inl hs))⟩, fun {m} hm =>
      ⟨fun hr => ?_, fun hs => husable _ (mem_references_iff.2 (.inr ⟨m, hm, hs⟩))⟩⟩
    · exact ⟨fun hs => hshaped hr (.inl (.inl hs)), fun hs => hshaped hr (.inl (.inr hs))⟩
    · exact ⟨fun hs => hshaped hr (.inr ⟨m, hm, .inl hs⟩), fun hs => hshaped hr (.inr ⟨m, hm, .inr hs⟩)⟩

variable {g : SchemaGraph} {target : Target} {config : Config}

/-- The definitions without a name are broken. -/
theorem broken_of_unnamed {id : SchemaId} (hid : id ∈ g.definitions.map (·.id))
    (hname : ((named g target).names.lookup id).isSome = false) : g.ReachesBroken config id := by
  obtain ⟨d, hd, rfl⟩ := List.mem_map.1 hid
  cases hnode : d.node with
  | error e => exact ⟨d, hd, .inl ⟨e, hnode⟩, .refl⟩
  | ok node =>
    have hsome : ((named g target).names.lookup d.id).isSome = true :=
      lookup_names_isSome_iff.2 ⟨d, hd, rfl, by simp [hnode, Except.isOk, Except.toBool]⟩
    simp [hsome] at hname

section Coherent

variable (hg : g.Coherent)

include hg

/-- Nodes inside definitions are isolated while a definition is lowered. -/
theorem isolated_about (failed : List SchemaId) (id : SchemaId) :
    ((context g target config).about failed id).Isolated g.Inside where
  fresh := rfl
  inline := hg.inline
  unique := hg.unique
  children := by
    rintro m k ⟨d, hd, node, hnode, hm⟩ hk
    exact ⟨d, hd, node, hnode, hm.trans (.child hk)⟩

/-- A definition that was lowered from a draft of its own is clean exactly if that succeeded. -/
theorem lowered_clean {d : Definition} (hd : d ∈ g.definitions) {failed : List SchemaId} {r : Naming.Registry}
    {node : SchemaNode} {name : String} {answer : Except Diagnostic Unit} {draft : Draft}
    (h : (context g target config).Lowered d failed r node name answer draft) :
    answer.isOk = true ↔ ((context g target config).about failed d.id).Clean node.shape := by
  have hisolated : ((context g target config).about failed d.id).Isolated g.Inside := isolated_about hg failed d.id
  have hinner : ∀ m ∈ node.shape.children, g.Inside m := fun m hm => ⟨d, hd, node, h.node_eq, .child hm⟩
  have hends := lowerDefinition_decides hisolated d.id name hinner r
  cases answer with
  | ok _ => exact ⟨fun _ => hends.answer h.run_eq, fun _ => rfl⟩
  | error e => exact ⟨nofun, fun hclean => absurd hclean (hends.failure h.run_eq)⟩

/-- A definition that fails is broken, or refers to one that failed before or has no name. -/
theorem reachesBroken_of_fails {d : Definition} (hd : d ∈ g.definitions) {failed : List SchemaId} {r : Naming.Registry}
    {node : SchemaNode} {name : String} {e : Diagnostic} {draft : Draft}
    (h : (context g target config).Lowered d failed r node name (.error e) draft)
    (hfailed : ∀ t ∈ failed, g.ReachesBroken config t) : g.ReachesBroken config d.id := by
  have hnot : ¬ ((context g target config).about failed d.id).Clean node.shape :=
    fun hclean => nomatch (lowered_clean hg hd h).2 hclean
  rw [clean_iff_references, Classical.not_and_iff_not_or_not] at hnot
  rcases hnot with hbare | hunusable
  · rw [Classical.not_imp, not_not] at hbare
    exact ⟨d, hd, .inr ⟨hbare.1, node, h.node_eq, hbare.2⟩, .refl⟩
  · simp only [not_forall] at hunusable
    obtain ⟨t, ht, hunusable⟩ := hunusable
    have hrefers : g.Refers d.id t := ⟨d, hd, rfl, node, h.node_eq, by rwa [SchemaNode.references_eq]⟩
    refine .of_refers hrefers ?_
    rw [Classical.not_and_iff_not_or_not, not_not, Bool.not_eq_true] at hunusable
    rcases hunusable with hname | hf
    · exact broken_of_unnamed (hg.targets hrefers) hname
    · exact hfailed t hf

/-- Every definition that is lost reaches a broken one. -/
theorem lost_reachesBroken : ∀ id ∈ lost g target config, g.ReachesBroken config id := by
  refine lost_least hg.nodup (fun d hd e he => ⟨d, hd, .inl ⟨e, he⟩, .refl⟩)
    (fun d hd {_ _ _ _ _ _} hl hfailed => reachesBroken_of_fails hg hd hl hfailed) fun d hd node hnode y hy hbad => ?_
  exact .of_refers ⟨d, hd, rfl, node, hnode, hy⟩ hbad

/-- A definition that is kept reaches no broken one. -/
theorem kept_not_reachesBroken {id : SchemaId} (hid : id ∈ g.definitions.map (·.id))
    (hkept : id ∉ lost g target config) : ¬ g.ReachesBroken config id := by
  rintro ⟨b, hb, hbroken, hreach⟩
  have hlowered {x : SchemaId} (hx : x ∈ g.definitions.map (·.id)) (hxl : x ∉ lost g target config) :
      ∃ d ∈ g.definitions, ∃ failed r node name draft, d.id = x ∧
        (context g target config).Lowered d failed r node name (.ok ()) draft := by
    obtain ⟨p, hp, rfl⟩ := List.mem_map.1 ((mem_kept_iff hg.nodup hx).2 hxl)
    obtain ⟨-, d, hd, failed, r, node, name, hdid, -, -, hl⟩ := kept_traced hp
    exact ⟨d, hd, failed, r, node, name, p.2, hdid, hl⟩
  -- What is kept refers to what is kept, so all that is reached is kept.
  have hend : b.id ∉ lost g target config := by
    clear hbroken
    induction hreach using Relation.ReflTransGen.head_induction_on with
    | refl => exact hkept
    | head hxy _ ih =>
      refine ih (hg.targets hxy) ?_
      obtain ⟨d, hd, rfl, node, hnode, hy⟩ := hxy
      exact not_lost_of_reference hg.nodup hd hnode hkept hy
  obtain ⟨d, hd, failed, r, node, name, draft, hdid, hl⟩ := hlowered (List.mem_map_of_mem hb) hend
  obtain rfl : d = b := List.inj_on_of_nodup_map hg.nodup hd hb hdid
  rcases hbroken with ⟨e, he⟩ | ⟨hreject, node', hnode', hbare⟩
  · rw [hl.node_eq] at he
    cases he
  · rw [hl.node_eq] at hnode'
    cases hnode'
    exact (clean_iff_references.1 ((lowered_clean hg hd hl).1 rfl)).1 hreject hbare

/-- A model generates exactly the definitions that reach no broken one. -/
theorem generates_iff_not_reachesBroken (operations : List Operation) {id : SchemaId}
    (hid : id ∈ g.definitions.map (·.id)) :
    (Model.ofGraph g operations target config).Generates id ↔ ¬ g.ReachesBroken config id := by
  rw [generates_iff hg.nodup operations hid]
  exact ⟨kept_not_reachesBroken hg hid, fun h hl => h (lost_reachesBroken hg id hl)⟩

/-- Which definitions a model generates depends neither on their order nor on the operations. -/
theorem generates_perm {g' : SchemaGraph} (h : g.definitions.Perm g'.definitions) (operations operations' : List Operation)
    {id : SchemaId} (hid : id ∈ g.definitions.map (·.id)) :
    (Model.ofGraph g' operations' target config).Generates id ↔
      (Model.ofGraph g operations target config).Generates id := by
  rw [generates_iff_not_reachesBroken hg operations hid,
    generates_iff_not_reachesBroken (hg.of_perm h) operations' ((h.map _).mem_iff.1 hid), not_iff_not]
  exact ⟨.of_perm h.symm, .of_perm h⟩

end Coherent

end Lowering

end ContractBindings
