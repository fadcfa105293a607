import Mathlib.Data.List.Pairwise
import ContractBindings.Proofs.Model.Propagation
import ContractBindings.Proofs.Model.Sources

/-!
# A definition makes types of all schemas in it

Where nodes are known by their identities, lowering a definition records every node in it that becomes a type
(`lower_covers`). A node that is recorded is not looked into again, so this needs an invariant of the draft
(`Draft.Covered`): what stands in a recorded node is recorded, or the node is still being lowered and larger than what
is lowered now. So in a coherent graph two types of a model are made of one schema exactly if two definitions of which
types are generated make a type of it (`ofGraph_sources_nodup_iff`).
-/

namespace ContractBindings.Lowering

variable {c : Context} {inner : SchemaNode → Prop} {bound : Nat} {made made' : SchemaId → Prop} {s s' s'' : Draft}

/-! ## What is covered -/

/-- The schemas that a node makes types of have recorded names. -/
def Draft.Covers (c : Context) (s : Draft) (m : SchemaNode) : Prop := ∀ id, m.shape.Makes c.graph id → id ∈ s.recorded

/-- The nodes with recorded names are covered or no smaller than the bound. -/
def Draft.Covered (c : Context) (inner : SchemaNode → Prop) (bound : Nat) (s : Draft) : Prop :=
  ∀ m, inner m → m.id ∈ s.recorded → s.Covers c m ∨ bound ≤ sizeOf m

/-- What was recorded stays so, and the nodes whose names were recorded on the way are covered. -/
structure Draft.Covering (c : Context) (inner : SchemaNode → Prop) (s s' : Draft) : Prop where
  recorded_subset : s.recorded ⊆ s'.recorded
  covers : ∀ m, inner m → m.id ∈ s'.recorded → m.id ∈ s.recorded ∨ s'.Covers c m

theorem Draft.Covering.of_eq (h : s'.recorded = s.recorded) : Draft.Covering c inner s s' :=
  ⟨h ▸ List.Subset.refl _, fun _ _ hm => .inl (h ▸ hm)⟩

theorem Draft.Covers.mono {m : SchemaNode} (h : s.Covers c m) (hs : s.recorded ⊆ s'.recorded) : s'.Covers c m :=
  fun id hid => hs (h id hid)

theorem Draft.Covering.trans (h : Draft.Covering c inner s s') (h' : Draft.Covering c inner s' s'') :
    Draft.Covering c inner s s'' where
  recorded_subset := List.Subset.trans h.recorded_subset h'.recorded_subset
  covers := by
    intro m hm hid
    rcases h'.covers m hm hid with hid | hcovers
    · exact (h.covers m hm hid).imp_right fun hcovers => hcovers.mono h'.recorded_subset
    · exact .inr hcovers

theorem Draft.Covered.after (h : Draft.Covered c inner bound s) (h' : Draft.Covering c inner s s') :
    Draft.Covered c inner bound s' := by
  intro m hm hid
  rcases h'.covers m hm hid with hid | hcovers
  · exact (h m hm hid).imp_left fun hcovers => hcovers.mono h'.recorded_subset
  · exact .inl hcovers

/-- A computation that records the schemas that are made into types, as long as what is being lowered is no smaller than
the bound. -/
def Covers (c : Context) (inner : SchemaNode → Prop) (bound : Nat) (made : SchemaId → Prop) (x : Lower α) : Prop :=
  ∀ s, Draft.Covered c inner bound s →
    Ends x s (fun _ s' => (∀ id, made id → id ∈ s'.recorded) ∧ Draft.Covering c inner s s') fun _ _ => True

namespace Covers

variable {x : Lower α}

/-- What records nothing. -/
theorem of_collects (hx : Collects c (fun _ => False) x) : Covers c inner bound (fun _ => False) x := by
  refine fun s _ => (hx s).mono ?_ fun _ _ _ => trivial
  rintro a s' ⟨ids, h⟩
  obtain rfl : ids = [] := List.eq_nil_iff_forall_not_mem.2 h.made
  exact ⟨fun _ h => h.elim, .of_eq (by simpa using h.recorded_eq)⟩

theorem mono (hx : Covers c inner bound made x) (hm : ∀ id, made' id → made id) : Covers c inner bound made' x :=
  fun s hs => (hx s hs).mono (fun _ _ ⟨h, hc⟩ => ⟨fun id hid => h id (hm id hid), hc⟩) fun _ _ _ => trivial

theorem bind {f : α → Lower β} (hx : Covers c inner bound made x) (hf : ∀ a, Covers c inner bound made' (f a)) :
    Covers c inner bound (fun id => made id ∨ made' id) (x >>= f) := by
  intro s hs
  refine ends_bind.2 ((hx s hs).mono ?_ fun _ _ _ => trivial)
  rintro a s' ⟨hmade, hc⟩
  refine (hf a s' (hs.after hc)).mono ?_ fun _ _ _ => trivial
  rintro b s'' ⟨hmade', hc'⟩
  exact ⟨fun id hid => hid.elim (fun hid => hc'.recorded_subset (hmade id hid)) (hmade' id), hc.trans hc'⟩

/-- What follows records nothing. -/
theorem andThen {f : α → Lower β} (hx : Covers c inner bound made x) (hf : ∀ a, Collects c (fun _ => False) (f a)) :
    Covers c inner bound made (x >>= f) := (hx.bind fun a => of_collects (hf a)).mono fun _ h => .inl h

theorem map {f : α → β} (hx : Covers c inner bound made x) : Covers c inner bound made (f <$> x) :=
  fun s hs => ends_map.2 (hx s hs)

/-- What the nodes make types of that a computation lowers is recorded, as far as it is for each of them. -/
theorem of_traverses {nodes : List SchemaNode} (h : Traverses c .nested nodes x)
    (hnodes : ∀ m ∈ nodes, ∀ hint, Covers c inner bound (m.Makes c.graph) (lower c hint .nested m)) :
    Covers c inner bound (fun id => ∃ m ∈ nodes, m.Makes c.graph id) x := by
  have hnone {α : Type} {x : Lower α} (h : Collects c (fun _ => False) x) :
      Covers c inner bound (fun id => ∃ m ∈ ([] : List SchemaNode), m.Makes c.graph id) x :=
    (of_collects h).mono fun id ⟨_, hm, _⟩ => by cases hm
  induction h with
  | pure a => exact hnone .pure
  | throw e => exact hnone .throw
  | warn code message => exact hnone (.warn code message)
  | node hint n =>
    refine (hnodes n List.mem_cons_self hint).mono fun id ⟨m, hm, h⟩ => ?_
    rwa [List.mem_singleton.1 hm] at h
  | bind _ _ ihx ihf =>
    obtain ⟨hfirst, hsecond⟩ := List.forall_mem_append.1 hnodes
    refine ((ihx hfirst).bind fun a => ihf a hsecond).mono fun id ⟨m, hm, h⟩ => ?_
    exact (List.mem_append.1 hm).imp (fun hm => ⟨m, hm, h⟩) fun hm => ⟨m, hm, h⟩

/-- A node that becomes a type is recorded while what stands in it is lowered. -/
theorem defineInline {n : SchemaNode} {id : SchemaId} {title doc : Option String} {hint : String}
    {body : String → Lower TypeBody} (hc : c.Isolated inner) (hn : inner n) (hid : n.id = id) (hlt : sizeOf n < bound)
    (hbody : ∀ name, Covers c inner (sizeOf n) (n.shape.Makes c.graph) (body name)) :
    Covers c inner bound (n.Makes c.graph) (Lowering.defineInline id title doc hint body) := by
  subst hid
  intro s hs
  rw [ends_defineInline]
  have hrecorded (r : Naming.Registry) (name : String) :
      Draft.recorded { s with registry := r, inlineNames := s.inlineNames ++ [(n.id, name)] } = s.recorded ++ [n.id] := by
    simp [Draft.recorded]
  refine (hbody _ _ ?_).mono ?_ fun _ _ _ => trivial
  · intro m hm hmid
    rw [hrecorded, List.mem_append, List.mem_singleton] at hmid
    rcases hmid with hmid | hmid
    · refine (hs m hm hmid).imp (fun hcovers => hcovers.mono ?_) fun h => Nat.le_trans (Nat.le_of_lt hlt) h
      rw [hrecorded]
      exact List.subset_append_left _ _
    · exact .inr (hc.unique hm hn hmid ▸ Nat.le_refl _)
  · rintro b s' ⟨hmade, hcovering⟩
    have hsub := hcovering.recorded_subset
    rw [hrecorded] at hsub
    have hself : n.id ∈ s'.recorded := hsub (List.mem_append_right _ List.mem_cons_self)
    refine ⟨?_, fun x hx => hsub (List.mem_append_left _ hx), fun m hm hmid => ?_⟩
    · rintro id ⟨-, ⟨-, rfl⟩ | h⟩
      · exact hself
      · exact hmade id h
    · rcases hcovering.covers m hm hmid with hmid | hcovers
      · rw [hrecorded, List.mem_append, List.mem_singleton] at hmid
        exact hmid.imp_right fun hmid => hc.unique hm hn hmid ▸ hmade
      · exact .inr hcovers

/-- A node that has a name is covered. -/
theorem known? {node : SchemaNode} (hc : c.Isolated inner) (hn : inner node) (hlt : sizeOf node < bound)
    (hs : Draft.Covered c inner bound s) :
    Ends (Lowering.known? c node .nested) s
      (fun type s' => s' = s ∧ (type.isSome = true → ∀ id, node.Makes c.graph id → id ∈ s.recorded))
      fun _ _ => False := by
  obtain ⟨x, hx, hrun⟩ := known?_as c node .nested s
  refine .of_run_eq hrun ?_
  cases hx with
  | refused hpayload _ _ => cases hpayload
  | definition hdefines => exact absurd hdefines (by simp [hc.inline hn])
  | named _ hname =>
    rw [hc.fresh, or_iff_right List.not_mem_nil] at hname
    have hid : node.id ∈ s.recorded := List.mem_map_of_mem (f := (·.1)) hname
    refine ends_pure.2 ⟨rfl, fun _ => ?_⟩
    rintro id ⟨-, ⟨-, rfl⟩ | h⟩
    · exact hid
    · rcases hs node hn hid with hcovers | hle
      · exact hcovers id h
      · omega
  | new _ _ _ => exact ends_pure.2 ⟨rfl, by simp⟩

end Covers

/-! ## Lowering -/

/-- Lowering a node records all schemas that it makes types of. -/
theorem lower_covers (hc : c.Isolated inner) (n : SchemaNode) (hn : inner n) : ∀ bound, sizeOf n < bound → ∀ hint,
    Covers c inner bound (n.Makes c.graph) (lower c hint .nested n) := by
  induction n using SchemaNode.inductionOnChildren with
  | step n ih =>
    have hinside {α : Type} {x : Lower α} (h : Traverses c .nested n.shape.children x) (bound : Nat)
        (hle : sizeOf n ≤ bound) : Covers c inner bound (n.shape.Makes c.graph) x := by
      refine (Covers.of_traverses h fun m hm hint => ih m hm (hc.children hn hm) bound ?_ hint).mono
        fun id => Shape.makes_iff.1
      exact Nat.lt_of_lt_of_le (Nat.lt_trans (sizeOf_lt_of_mem_children hm) n.sizeOf_shape_lt) hle
    obtain ⟨id, title, description, nullable, shape⟩ := n
    intro bound hlt hint s hs
    rw [lower]
    refine ends_bind.2 ((Covers.known? hc hn hlt hs).mono ?_ fun _ _ h => h.elim)
    rintro type s' ⟨rfl, hknown⟩
    cases type with
    | some type => exact ends_pure.2 ⟨hknown rfl, .of_eq rfl⟩
    | none =>
      dsimp only
      split
      · next hcomposite =>
        refine Covers.andThen (Covers.map ?_) (fun type => .pure) s' hs
        refine Covers.defineInline hc hn rfl hlt fun name => ?_
        exact hinside (compose_traverses c id name hcomposite) _ (Nat.le_refl _)
      · next hplain =>
        have hdescribe := hinside (describe_traverses c id hint .nested (Bool.eq_false_iff.2 hplain)) bound
          (Nat.le_of_lt hlt)
        refine Covers.andThen (hdescribe.mono ?_) (fun type => .pure) s' hs
        rintro i ⟨-, ⟨hcomposite, -⟩ | h⟩
        · exact absurd hcomposite hplain
        · exact h

theorem lowerDefinition_covers (hc : c.Isolated inner) (id : SchemaId) (name : String) {node : SchemaNode}
    (hinner : ∀ m ∈ node.shape.children, inner m) (r : Naming.Registry) :
    Ends (lowerDefinition c id name node) (Draft.start r)
      (fun _ d => ∀ i, node.shape.Makes c.graph i → i ∈ d.recorded) fun _ _ => True := by
  have hcovered : Draft.Covered c inner (sizeOf node.shape) (Draft.start r) := by
    simp [Draft.Covered, Draft.recorded, Draft.start]
  have hinside {α : Type} {x : Lower α} (h : Traverses c .nested node.shape.children x) :
      Ends x (Draft.start r) (fun _ d => ∀ i, node.shape.Makes c.graph i → i ∈ d.recorded) fun _ _ => True := by
    have hcovers := Covers.of_traverses h fun m hm => lower_covers hc m (hinner m hm) _ (sizeOf_lt_of_mem_children hm)
    exact (hcovers _ hcovered).mono (fun _ _ h i hi => h.1 i (Shape.makes_iff.1 hi)) fun _ _ _ => trivial
  unfold lowerDefinition
  split
  · next hcomposite =>
    refine ends_bind.2 ((hinside (compose_traverses c id name hcomposite)).mono ?_ fun _ _ h => h)
    exact fun _ _ h => ends_modify.2 h
  · next hplain =>
    have hdescribe := hinside (describe_traverses c id name .nested (Bool.eq_false_iff.2 hplain))
    refine ends_bind.2 (hdescribe.mono ?_ fun _ _ h => h)
    exact fun _ _ h => ends_bind.2 (ends_pure.2 (ends_modify.2 h))

/-! ## Two types of one schema -/

section Coherent

variable {g : SchemaGraph} {target : Target} {config : Config} (hg : g.Coherent)

include hg

/-- In a coherent graph, the types of a kept definition are made of all schemas that it makes types of. -/
theorem mem_kept_sources {p : SchemaId × Draft} (hp : p ∈ kept g target config) {d : Definition}
    (hd : d ∈ g.definitions) (hid : d.id = p.1) {node : SchemaNode} (hnode : d.node = .ok node) {id : SchemaId}
    (h : node.shape.Makes g id) : id ∈ p.2.types.map (·.source) := by
  obtain ⟨-, -, -, -, -, hsources, -⟩ := kept_sources hp
  obtain ⟨-, d', hd', failed, r, node', name, hid', -, -, hl⟩ := kept_traced hp
  obtain rfl : d' = d := List.inj_on_of_nodup_map hg.nodup hd' hd (hid'.trans hid.symm)
  obtain rfl : node' = node := Except.ok.inj (hl.node_eq.symm.trans hnode)
  have hinner : ∀ m ∈ node'.shape.children, g.Inside m := fun m hm => ⟨d', hd, node', hnode, .child hm⟩
  have hrecorded := (lowerDefinition_covers (isolated_about hg failed d'.id) d'.id name hinner r).answer hl.run_eq
  rw [hsources]
  exact List.mem_cons_of_mem _ (hrecorded id h)

/-- In a coherent graph, the types of a model are made of different schemas exactly if no two definitions of which types
are generated make a type of schemas with one identity. -/
theorem ofGraph_sources_nodup_iff (operations : List Operation) :
    ((Model.ofGraph g operations target config).types.map (·.source)).Nodup ↔
      g.Apart (Model.ofGraph g operations target config).Generates := by
  refine ⟨fun h => ?_, ofGraph_sources_nodup hg.nodup operations⟩
  obtain ⟨added, hadded, -⟩ := ofGraph_types target config hg.nodup operations
  rw [hadded, List.map_append, assembled_types, List.map_flatMap] at h
  have hkept := List.nodup_flatMap.1 (List.nodup_append.1 h).1
  intro d hd d' hd' node node' id hnode hnode' hgen hgen' hmade hmade'
  have hmem {d : Definition} (hd : d ∈ g.definitions)
      (hgen : (Model.ofGraph g operations target config).Generates d.id) : ∃ p ∈ kept g target config, p.1 = d.id := by
    have hl := (generates_iff hg.nodup operations (List.mem_map_of_mem hd)).1 hgen
    exact List.mem_map.1 ((mem_kept_iff hg.nodup (List.mem_map_of_mem hd)).2 hl)
  obtain ⟨p, hp, hpid⟩ := hmem hd hgen
  obtain ⟨q, hq, hqid⟩ := hmem hd' hgen'
  have hsymm : Std.Symm (Function.onFun List.Disjoint fun a : SchemaId × Draft => a.2.types.map (·.source)) :=
    ⟨fun _ _ h _ hy hx => h hx hy⟩
  by_contra hne
  have hpq : p ≠ q := fun heq => hne (by rw [← hpid, ← hqid, heq])
  exact hkept.2.forall hp hq hpq (mem_kept_sources hg hp hd hpid.symm hnode hmade)
    (mem_kept_sources hg hq hd' hqid.symm hnode' hmade')

end Coherent

end ContractBindings.Lowering
