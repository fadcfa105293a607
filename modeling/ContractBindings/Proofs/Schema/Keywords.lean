import ContractBindings.Proofs.Schema.Landing

/-!
# The keywords of schemas place nodes

One lemma for each keyword: what its part of interpretation makes stands at its place, if what the levels below make
does. Branches, fields and parts stand at places of their own, and a composition that amounts to one object takes nodes
over from its parts or from definitions that are finished. `visit_lands` joins them by induction on the depth.
-/

namespace ContractBindings

open SchemaId

namespace Interpretation

section Levels

variable {r : Resolver} {visit : Visit}

/-! ## Unions -/

theorem tags_lands (hr : r.Rooted) (hvisit : ∀ tree id, Lands id (visit tree id) fun n s => NodeAt s id n)
    (id holder : SchemaId) (entries : Entries) :
    Lands id (tags r visit holder entries) fun _ _ => True := by
  rw [tags]
  refine (Lands.foldlM (Q := fun _ _ => True) (fun selected p => ?_) entries []).mono fun _ _ _ _ => trivial
  obtain ⟨tag, target⟩ := p
  dsimp only
  split
  · exact Lands.bind (reference_lands hr hvisit id _ holder).elsewhere (fun _ _ => trivial) fun k =>
      Lands.pure fun _ _ _ _ _ h => h
  · exact Lands.pure fun _ _ _ _ h => h

theorem discriminator_lands (hr : r.Rooted) (hvisit : ∀ tree id, Lands id (visit tree id) fun n s => NodeAt s id n)
    (entries : Entries) (id : SchemaId) :
    Lands id (discriminator r visit entries id) fun _ _ => True := by
  rw [discriminator]
  split
  · exact Lands.pure fun _ _ => trivial
  · split
    · exact Lands.pure fun _ _ => trivial
    · split
      · exact Lands.pure fun _ _ => trivial
      · exact Lands.bind (tags_lands hr hvisit id _ _) (fun _ _ => trivial) fun _ => Lands.pure fun _ _ _ => trivial

theorem toString_nat_injective {a b : Nat} (h : toString a = toString b) : a = b := by
  have := congrArg (fun s : String => Nat.ofDigitChars 10 s.toList 0) h
  simpa using this

/-- The indices of items differ. -/
theorem indexed_pairwise (items : List γ) : (indexed items).Pairwise fun p q => p.1 ≠ q.1 := by
  have hfst : (indexed items).map (·.1) = List.range items.length := List.map_fst_zip (by simp)
  have hnodup := List.nodup_range (n := items.length)
  rwa [← hfst, List.Nodup, List.pairwise_map] at hnodup

/-- Nodes at the indices of items under one place stand apart. -/
theorem pairwise_apart_of_indexed {nodes : List SchemaNode} {items : List (Nat × γ)} {base : SchemaId}
    (hitems : items.Pairwise fun p q => p.1 ≠ q.1)
    (h : nodes.map SchemaNode.id = items.map fun p => base.child (toString p.1)) :
    nodes.Pairwise fun a b => Apart a.id b.id := by
  have hplaces : (items.map fun p => base.child (toString p.1)).Pairwise Apart :=
    List.pairwise_map.2 (hitems.imp fun hne => apart_child fun he => hne (toString_nat_injective he))
  rw [← h, List.pairwise_map] at hplaces
  exact hplaces

/-- A node at an index under a place. -/
theorem exists_index {nodes : List SchemaNode} {items : List (Nat × γ)} {base : SchemaId}
    (h : nodes.map SchemaNode.id = items.map fun p => base.child (toString p.1)) {c : SchemaNode} (hc : c ∈ nodes) :
    ∃ p ∈ items, c.id = base.child (toString p.1) := by
  have hmem : c.id ∈ items.map fun p => base.child (toString p.1) := h ▸ List.mem_map_of_mem hc
  obtain ⟨p, hp, he⟩ := List.mem_map.1 hmem
  exact ⟨p, hp, he.symm⟩

theorem union_lands (hr : r.Rooted) (hvisit : ∀ tree id, Lands id (visit tree id) fun n s => NodeAt s id n)
    (entries : Entries) (id : SchemaId) (key : String) (branches : List Tree) :
    Lands id (union r visit entries id key branches) fun p s => ShapeAt s id p.1 := by
  have hpairwise (keep : Nat × Tree → Bool) := (indexed_pairwise branches).filter keep
  rw [union]
  refine Lands.bind (Lands.mapM (fun p => (id.child key).child (toString p.1)) ?_ _) ?_ fun nodes => ?_
  · rintro ⟨index, branch⟩
    exact (hvisit branch _).inside (((below_child _ _).trans_within (below_child _ _).within).within)
  · exact fun hs h => ⟨h.1, fun n hn => (h.2 n hn).mono hs⟩
  · have hbelow {others : List (Nat × Tree)}
        (h : nodes.map SchemaNode.id = others.map fun p => (id.child key).child (toString p.1)) (c : SchemaNode)
        (hc : c ∈ nodes) : Below id c.id := by
      obtain ⟨p, -, he⟩ := exists_index h hc
      exact he ▸ (below_child _ _).trans_within (below_child _ _).within
    dsimp only
    split
    · next single _ =>
      refine Lands.pure fun s hready hnodes => ?_
      have hsingle := hnodes.2 single List.mem_cons_self
      refine ShapeAt.of_list hready (hbelow hnodes.1) (pairwise_apart_of_indexed (hpairwise _) hnodes.1) hnodes.2
        (fun m hm => .inl ⟨single, List.mem_cons_self, .inr hm⟩) hsingle.target
    · refine Lands.bind (discriminator_lands hr hvisit entries id) (fun _ _ => trivial) fun d => ?_
      refine Lands.pure fun s hready _ hnodes => ?_
      exact ShapeAt.of_children hready (hbelow hnodes.1) (pairwise_apart_of_indexed (hpairwise _) hnodes.1) hnodes.2
        (by simp)

/-! ## Objects and lists -/

/-- Fields under a place, each at the child of its name. -/
def FieldsAt (s : Slots) (base : SchemaId) (fields : List (String × SchemaNode)) : Prop :=
  (fields.map (·.1)).Nodup ∧ ∀ p ∈ fields, NodeAt s (base.child p.1) p.2

theorem FieldsAt.mono {s s' : Slots} {base : SchemaId} {fields : List (String × SchemaNode)}
    (h : FieldsAt s base fields) (hs : s.Extends s') : FieldsAt s' base fields :=
  ⟨h.1, fun p hp => (h.2 p hp).mono hs⟩

theorem FieldsAt.pairwise {s : Slots} {base : SchemaId} {fields : List (String × SchemaNode)}
    (h : FieldsAt s base fields) : (fields.map (·.2)).Pairwise fun a b => Apart a.id b.id := by
  have hnames := h.1
  rw [List.Nodup, List.pairwise_map] at hnames
  rw [List.pairwise_map]
  refine hnames.imp_of_mem fun {p q} hp hq hne => ?_
  rw [(h.2 p hp).id_eq, (h.2 q hq).id_eq]
  exact apart_child hne

theorem fields_lands (hvisit : ∀ tree id, Lands id (visit tree id) fun n s => NodeAt s id n) (properties : Entries)
    (id : SchemaId) : Lands id (fields visit properties id) fun fields s => FieldsAt s id fields := by
  rw [fields]
  refine (Lands.foldlM (Q := fun fields s => FieldsAt s id fields) (fun fields p => ?_) properties []).mono
    fun fields s _ h => h ⟨fun hk => hk, fun hk => hk⟩ ⟨by simp, by simp⟩
  obtain ⟨key, tree⟩ := p
  dsimp only
  split
  · next name _ =>
    refine Lands.bind ((hvisit tree (id.child name)).inside (below_child _ _).within) (steady_nodeAt _) fun n => ?_
    refine Lands.pure fun s _ hn s' hs hfields => ⟨nodup_upsert hfields.1, fun p hp => ?_⟩
    rcases mem_upsert hfields.1 hp with rfl | ⟨hp, -⟩
    · exact hn.mono hs
    · exact hfields.2 p hp
  · exact Lands.pure fun _ _ _ _ h => h

/-- An object at a place: its nodes stand apart, as properties or for the undeclared properties. -/
structure ObjectAt (s : Slots) (id : SchemaId) (shape : Shape) : Prop where
  apart : shape.children.Pairwise fun a b => Apart a.id b.id
  nodes : ∀ c ∈ shape.children, ShapeAt s c.id c.shape
  place : ∀ c ∈ shape.children, Within (id.child "properties") c.id ∨ Within (id.child "additionalProperties") c.id
  not_reference : ∀ t, shape ≠ .reference t

namespace ObjectAt

variable {s s' : Slots} {id : SchemaId} {shape : Shape}

theorem mono (h : ObjectAt s id shape) (hs : s.Extends s') : ObjectAt s' id shape :=
  { h with nodes := fun c hc => (h.nodes c hc).mono hs }

theorem below (h : ObjectAt s id shape) {c : SchemaNode} (hc : c ∈ shape.children) : Below id c.id :=
  (h.place c hc).elim (below_child _ _).trans_within (below_child _ _).trans_within

theorem shapeAt (h : ObjectAt s id shape) (hr : s.Ready id) : ShapeAt s id shape :=
  .of_children hr (fun _ hc => h.below hc) h.apart h.nodes h.not_reference

theorem of_fields {fields : List (String × SchemaNode)} {required : List String} {additional : Option SchemaNode}
    (hfields : FieldsAt s (id.child "properties") fields)
    (hadditional : ∀ n ∈ additional, NodeAt s (id.child "additionalProperties") n) :
    ObjectAt s id (.object fields required additional) where
  apart := by
    rw [Shape.children, List.pairwise_append]
    refine ⟨hfields.pairwise, ?_, ?_⟩
    · cases additional <;> simp
    · intro a ha b hb
      obtain ⟨p, hp, rfl⟩ := List.mem_map.1 ha
      have hb' := hadditional b (by simpa using hb)
      rw [(hfields.2 p hp).id_eq, hb'.id_eq]
      exact (apart_child (by decide)).within (below_child _ _).within (.inl rfl)
  nodes := by
    intro c hc
    rcases List.mem_append.1 hc with hc | hc
    · obtain ⟨p, hp, rfl⟩ := List.mem_map.1 hc
      exact (hfields.2 p hp).id_eq ▸ (hfields.2 p hp).shape
    · have hn := hadditional c (by simpa using hc)
      exact hn.id_eq ▸ hn.shape
  place := by
    intro c hc
    rcases List.mem_append.1 hc with hc | hc
    · obtain ⟨p, hp, rfl⟩ := List.mem_map.1 hc
      exact .inl ((hfields.2 p hp).id_eq ▸ (below_child _ _).within)
    · exact .inr (.inl (hadditional c (by simpa using hc)).id_eq)
  not_reference := by simp

end ObjectAt

theorem nodeAt_unknown {s : Slots} {id : SchemaId} (hr : s.Ready id) : NodeAt s id (SchemaNode.unknown id) :=
  ⟨rfl, .of_leaf hr rfl (by simp [SchemaNode.unknown, SchemaNode.ofShape, SchemaNode.shape])⟩

theorem object_lands (hvisit : ∀ tree id, Lands id (visit tree id) fun n s => NodeAt s id n) (entries : Entries)
    (id : SchemaId) : Lands id (object visit entries id) fun shape s => ObjectAt s id shape := by
  have hunknown : Lands id (Pure.pure (some (SchemaNode.unknown (id.child "additionalProperties"))))
      fun a s => ∀ n ∈ a, NodeAt s (id.child "additionalProperties") n := by
    refine Lands.pure fun s hr n hn => ?_
    rw [← Option.mem_some.1 hn]
    exact nodeAt_unknown (hr.within (below_child _ _).within)
  have hnone : Lands id (Pure.pure none)
      fun a s => ∀ n ∈ a, NodeAt s (id.child "additionalProperties") n := Lands.pure fun _ _ _ h => by cases h
  have hrest (fields : List (String × SchemaNode)) (additional : Option SchemaNode) :
      Lands id (Pure.pure (Shape.object fields (requiredNames entries) additional)) fun shape s =>
        (∀ n ∈ additional, NodeAt s (id.child "additionalProperties") n) →
          FieldsAt s (id.child "properties") fields → ObjectAt s id shape :=
    Lands.pure fun s _ ha hf => .of_fields hf ha
  have hsteady : Steady fun (a : Option SchemaNode) s => ∀ n ∈ a, NodeAt s (id.child "additionalProperties") n :=
    fun hs h n hn => (h n hn).mono hs
  rw [object]
  refine Lands.bind ((fields_lands hvisit _ _).inside (below_child _ _).within) (fun hs h => h.mono hs) fun fields => ?_
  dsimp only
  split
  · exact Lands.bind hnone hsteady (hrest fields)
  · exact Lands.bind hunknown hsteady (hrest fields)
  · next schema _ _ _ =>
    have hvisited : Lands id (some <$> visit schema (id.child "additionalProperties"))
        fun a s => ∀ n ∈ a, NodeAt s (id.child "additionalProperties") n := by
      refine Lands.map (((hvisit schema _).inside (below_child _ _).within).mono fun n s _ hn m hm => ?_)
      exact Option.mem_some.1 hm ▸ hn
    exact Lands.bind hvisited hsteady (hrest fields)
  · split
    · exact Lands.bind hunknown hsteady (hrest fields)
    · exact Lands.bind hnone hsteady (hrest fields)

theorem array_lands (hvisit : ∀ tree id, Lands id (visit tree id) fun n s => NodeAt s id n) (entries : Entries)
    (id : SchemaId) : Lands id (array visit entries id) fun shape s => ShapeAt s id shape := by
  rw [array]
  split
  · next items _ =>
    refine Lands.bind ((hvisit items (id.child "items")).inside (below_child _ _).within) (steady_nodeAt _) fun n => ?_
    refine Lands.pure fun s hr hn => .of_children hr ?_ (by simp [Shape.children]) ?_ (by simp)
    · intro c hc
      obtain rfl : c = n := by simpa [Shape.children] using hc
      exact hn.id_eq ▸ below_child _ _
    · intro c hc
      obtain rfl : c = n := by simpa [Shape.children] using hc
      exact hn.id_eq ▸ hn.shape
  · exact Lands.pure fun s hr => .of_leaf hr rfl (by simp)

theorem typed_lands (hvisit : ∀ tree id, Lands id (visit tree id) fun n s => NodeAt s id n) (declared : String)
    (entries : Entries) (id : SchemaId) :
    Lands id (typed visit declared entries id) fun shape s => ShapeAt s id shape := by
  have hprimitive (kind : PrimitiveKind) (format : Option ValueFormat) :
      Lands id (Pure.pure (Shape.primitive kind format)) fun shape s => ShapeAt s id shape :=
    Lands.pure fun s hr => .of_leaf hr rfl (by simp)
  unfold typed
  dsimp only
  split
  · exact hprimitive _ _
  · exact hprimitive _ _
  · exact hprimitive _ _
  · exact hprimitive _ _
  · exact (object_lands hvisit entries id).mono fun shape s hr h => h.shapeAt hr
  · exact array_lands hvisit entries id
  · exact Lands.throw

/-! ## Compositions -/

theorem mem_of_addFields {schema : SchemaId} {x : String × SchemaNode} :
    ∀ {more fields result : List (String × SchemaNode)}, Composition.addFields schema fields more = .ok result →
      x ∈ result → x ∈ fields ∨ x ∈ more
  | [], fields, result, h, hx => by
    cases h
    exact .inl hx
  | (name, field) :: rest, fields, result, h, hx => by
    rw [Composition.addFields] at h
    split at h
    · split at h
      · exact (mem_of_addFields h hx).imp_right (List.mem_cons_of_mem _)
      · cases h
    · rcases mem_of_addFields h hx with hx | hx
      · rcases List.mem_append.1 hx with hx | hx
        · exact .inl hx
        · exact .inr (by simpa using .inl (List.mem_singleton.1 hx))
      · exact .inr (List.mem_cons_of_mem _ hx)

/-- The nodes of the object that parts amount to are nodes of the parts. -/
theorem mem_of_addParts {schema : SchemaId} {c : SchemaNode} : ∀ {parts : List (Option Shape)}
    {m merged : Composition.Merged}, Composition.addParts schema m parts = .ok (some merged) →
      c ∈ merged.fields.map (·.2) ++ merged.additional.toList →
        c ∈ m.fields.map (·.2) ++ m.additional.toList ∨ ∃ shape, some shape ∈ parts ∧ c ∈ shape.children
  | [], m, merged, h, hc => by
    cases h
    exact .inl hc
  | none :: rest, m, merged, h, hc => by cases h
  | some shape :: rest, m, merged, h, hc => by
    cases shape with
    | object fields required additional =>
      rw [Composition.addParts] at h
      cases hfields : Composition.addFields schema m.fields fields with
      | error e =>
        rw [hfields] at h
        cases h
      | ok added =>
        rw [hfields] at h
        have hrest : Composition.addParts schema ⟨added, _, m.additional <|> additional⟩ rest = .ok (some merged) := h
        rcases mem_of_addParts hrest hc with hc | ⟨shape, hs, hc⟩
        · have hhere (hc : c ∈ (Shape.object fields required additional).children) :
              ∃ shape, some shape ∈ some (Shape.object fields required additional) :: rest ∧ c ∈ shape.children :=
            ⟨_, List.mem_cons_self, hc⟩
          rcases List.mem_append.1 hc with hc | hc
          · obtain ⟨p, hp, rfl⟩ := List.mem_map.1 hc
            rcases mem_of_addFields hfields hp with hp | hp
            · exact .inl (List.mem_append_left _ (List.mem_map_of_mem hp))
            · exact .inr (hhere (List.mem_append_left _ (List.mem_map_of_mem hp)))
          · cases hadditional : m.additional with
            | some n =>
              rw [hadditional] at hc
              exact .inl (List.mem_append_right _ hc)
            | none =>
              rw [hadditional] at hc
              exact .inr (hhere (List.mem_append_right _ hc))
        · exact .inr ⟨shape, List.mem_cons_of_mem _ hs, hc⟩
    | _ => cases h

/-- A composition that amounts to one shape amounts to the object that its parts add up to. -/
theorem flatten_object {schema : SchemaId} {parts : List (Option Shape)} {merged : Shape}
    (h : Composition.flatten schema parts = .ok (some merged)) :
    ∃ m, Composition.addParts schema Composition.Merged.empty parts = .ok (some m) ∧
      merged = .object m.fields m.required m.additional := by
  rw [Composition.flatten] at h
  cases hparts : Composition.addParts schema Composition.Merged.empty parts with
  | error e =>
    rw [hparts] at h
    cases h
  | ok answer =>
    rw [hparts] at h
    obtain ⟨m, rfl, rfl⟩ := Option.map_eq_some_iff.1 (Except.ok.inj h)
    exact ⟨m, rfl, rfl⟩

/-- A composition that amounts to one shape amounts to an object of the parts' nodes. -/
theorem flatten_spec {schema : SchemaId} {parts : List (Option Shape)} {merged : Shape}
    (h : Composition.flatten schema parts = .ok (some merged)) :
    (∀ t, merged ≠ .reference t) ∧
      ∀ c ∈ merged.children, ∃ shape, some shape ∈ parts ∧ c ∈ shape.children := by
  obtain ⟨m, hparts, rfl⟩ := flatten_object h
  refine ⟨by simp, fun c hc => ?_⟩
  rcases mem_of_addParts hparts hc with hc | hc
  · cases hc
  · exact hc

/-- The shape of a part is its own, or that of a finished definition. -/
theorem partShape_own_or_finished {s : Slots} {part : SchemaNode} {shape : Shape} (h : partShape? s part = some shape) :
    shape = part.shape ∨ ∃ target node, s.Finished target node ∧ shape = node.shape := by
  unfold partShape? at h
  split at h
  · next target _ =>
    unfold Slots.shape? at h
    split at h
    · next node hnode => exact .inr ⟨target, node, hnode, (Option.some.inj h).symm⟩
    · cases h
  · exact .inl (Option.some.inj h).symm

/-- The nodes of a part's shape stand in the part or are stored. -/
theorem holds_of_partShape {slots s : Slots} {part : SchemaNode} {shape : Shape} {m : SchemaNode}
    (h : partShape? slots part = some shape) (hs : slots.Extends s) (hg : s.Good) (hd : s.Direct) (hm : shape.Holds m) :
    part.shape.Holds m ∨ s.Stored m := by
  rcases partShape_own_or_finished h with rfl | ⟨target, node, hnode, rfl⟩
  · exact .inl hm
  · have hfinished : s.Finished target node := hs.finished hnode
    rcases (hg hd hfinished).shape.inside.place hm with hbelow | hstored
    · exact .inr ⟨target, node, hfinished, hm, hbelow⟩
    · exact .inr hstored

/-- The parts of a composition: nodes at their indices, and perhaps the properties beside them as one more part. -/
structure PartsAt (s : Slots) (id : SchemaId) (count : Nat) (nodes siblings : List SchemaNode) : Prop where
  nodes_apart : nodes.Pairwise fun a b => Apart a.id b.id
  nodes_place : ∀ c ∈ nodes, ∃ i, i < count ∧ c.id = (id.child "allOf").child (toString i)
  nodes_shape : ∀ c ∈ nodes, ShapeAt s c.id c.shape
  siblings_eq : siblings = [] ∨ ∃ shape, ObjectAt s id shape ∧
    siblings = [SchemaNode.ofShape ((id.child "allOf").child (toString count)) shape]

namespace PartsAt

variable {s : Slots} {id : SchemaId} {count : Nat} {nodes siblings : List SchemaNode}

/-- The nodes that a composition is made of: its parts, and for the properties beside them what these are made of. -/
def own (nodes siblings : List SchemaNode) : List SchemaNode := nodes ++ siblings.flatMap (·.shape.children)

theorem sibling_object (h : PartsAt s id count nodes siblings) {c : SchemaNode} (hc : c ∈ siblings) :
    ObjectAt s id c.shape ∧ c.id = (id.child "allOf").child (toString count) := by
  rcases h.siblings_eq with rfl | ⟨shape, hobject, rfl⟩
  · cases hc
  · obtain rfl := List.mem_singleton.1 hc
    exact ⟨hobject, rfl⟩

theorem mem_own (h : PartsAt s id count nodes siblings) {c : SchemaNode} (hc : c ∈ own nodes siblings) :
    ShapeAt s c.id c.shape ∧ (c ∈ nodes ∨ Within (id.child "properties") c.id ∨
      Within (id.child "additionalProperties") c.id) := by
  rcases List.mem_append.1 hc with hc | hc
  · exact ⟨h.nodes_shape c hc, .inl hc⟩
  · obtain ⟨sibling, hs, hc⟩ := List.mem_flatMap.1 hc
    have hobject := (h.sibling_object hs).1
    exact ⟨hobject.nodes c hc, .inr (hobject.place c hc)⟩

theorem within_allOf (h : PartsAt s id count nodes siblings) {c : SchemaNode} (hc : c ∈ nodes) :
    Within (id.child "allOf") c.id := by
  obtain ⟨i, -, he⟩ := h.nodes_place c hc
  exact he ▸ (below_child _ _).within

theorem below (h : PartsAt s id count nodes siblings) {c : SchemaNode} (hc : c ∈ own nodes siblings) :
    Below id c.id := by
  rcases (h.mem_own hc).2 with hn | hp | ha
  · exact (below_child _ _).trans_within (h.within_allOf hn)
  · exact (below_child _ _).trans_within hp
  · exact (below_child _ _).trans_within ha

/-- What is within the parts stands apart from the properties. -/
theorem apart_allOf {c : SchemaNode}
    (hc : Within (id.child "properties") c.id ∨ Within (id.child "additionalProperties") c.id) {x : SchemaId}
    (hx : Within (id.child "allOf") x) : Apart x c.id := by
  rcases hc with hc | hc
  · exact (apart_child (by decide)).within hx hc
  · exact (apart_child (by decide)).within hx hc

theorem placed (h : PartsAt s id count nodes siblings) (hr : s.Ready id) :
    Placed s (fun x => ∃ c ∈ own nodes siblings, Within c.id x)
      fun m => ∃ c ∈ own nodes siblings, m = c ∨ c.shape.Holds m := by
  refine Placed.list ?_ (fun c hc => (h.mem_own hc).1) fun m hm c hc hw =>
    hr.not_below hm ((h.below hc).trans_within hw)
  rw [own, List.pairwise_append]
  refine ⟨h.nodes_apart, ?_, fun a ha b hb => ?_⟩
  · rcases h.siblings_eq with rfl | ⟨shape, hobject, rfl⟩
    · simp
    · simpa [SchemaNode.ofShape, SchemaNode.shape] using hobject.apart
  · obtain ⟨sibling, hs, hb⟩ := List.mem_flatMap.1 hb
    exact apart_allOf ((h.sibling_object hs).1.place b hb) (h.within_allOf ha)

/-- What stands in a part is own. -/
theorem own_of_holds {part m : SchemaNode} (hpart : part ∈ nodes ++ siblings) (hm : part.shape.Holds m) :
    ∃ c ∈ own nodes siblings, m = c ∨ c.shape.Holds m := by
  rcases List.mem_append.1 hpart with hp | hp
  · exact ⟨part, List.mem_append_left _ hp, .inr hm⟩
  · obtain ⟨c, hc, h⟩ := hm.cases_children
    exact ⟨c, List.mem_append_right _ (List.mem_flatMap.2 ⟨part, hp, hc⟩), h⟩

/-- Where the parts amount to one object. -/
theorem shapeAt_merged (h : PartsAt s id count nodes siblings) (hr : s.Ready id) {slots : Slots} {merged : Shape}
    (hs : slots.Extends s)
    (hmerged : Composition.flatten id ((nodes ++ siblings).map (partShape? slots)) = .ok (some merged)) :
    ShapeAt s id merged := by
  obtain ⟨hreference, hchildren⟩ := flatten_spec hmerged
  refine .of_placed (h.placed hr) hr ?_ (fun m hm => ?_) fun ht => absurd ht (hreference _)
  · rintro x ⟨c, hc, hw⟩
    exact (h.below hc).trans_within hw
  · obtain ⟨c, hc, hcm⟩ := hm.cases_children
    obtain ⟨shape, hshape, hcs⟩ := hchildren c hc
    obtain ⟨part, hpart, hps⟩ := List.mem_map.1 hshape
    have hin : shape.Holds m := hcm.elim (fun he => he ▸ .child hcs) (.deeper hcs)
    rcases holds_of_partShape hps hs hr.good hr.direct hin with hin | hstored
    · exact .inl (own_of_holds hpart hin)
    · exact .inr hstored

/-- Where the parts stay apart. -/
theorem shapeAt_intersection (h : PartsAt s id count nodes siblings) (hr : s.Ready id) :
    ShapeAt s id (.intersection (nodes ++ siblings)) := by
  have hbelow : ∀ x, (∃ c ∈ own nodes siblings, Within c.id x) → Below id x := fun x ⟨c, hc, hw⟩ =>
    (h.below hc).trans_within hw
  rcases h.siblings_eq with hnil | ⟨shape, hobject, hone⟩
  · refine .of_placed (h.placed hr) hr hbelow (fun m hm => .inl ?_) (by simp)
    obtain ⟨c, hc, rfl | hm⟩ := hm.cases_children
    · rw [hnil, Shape.children, List.append_nil] at hc
      exact ⟨m, List.mem_append_left _ hc, .inl rfl⟩
    · exact own_of_holds hc hm
  · obtain ⟨sibling, hsibling⟩ : ∃ sibling, sibling ∈ siblings := ⟨_, hone ▸ List.mem_singleton_self _⟩
    obtain ⟨hobject, hplace⟩ := h.sibling_object hsibling
    have hin : Within (id.child "allOf") sibling.id := hplace ▸ (below_child _ _).within
    have hsingle := Placed.singleton (s := s) (c := sibling) fun ht => absurd ht (hobject.not_reference _)
    have hunion := (h.placed hr).union hsingle ?_ ?_
    · refine .of_placed hunion hr ?_ (fun m hm => .inl ?_) (by simp)
      · rintro x (hx | rfl)
        · exact hbelow x hx
        · exact (below_child _ _).trans_within hin
      · obtain ⟨c, hc, rfl | hm⟩ := hm.cases_children
        · rcases List.mem_append.1 hc with hc | hc
          · exact .inl ⟨m, List.mem_append_left _ hc, .inl rfl⟩
          · rw [hone, List.mem_singleton] at hc hsibling
            exact .inr (hc.trans hsibling.symm)
        · exact .inl (own_of_holds hc hm)
    · rintro x ⟨c, hc, hw⟩ rfl
      rcases (h.mem_own hc).2 with hn | hp
      · obtain ⟨i, hi, he⟩ := h.nodes_place c hn
        have hne : toString i ≠ toString count := fun he => Nat.ne_of_lt hi (toString_nat_injective he)
        exact apart_child hne sibling.id (he ▸ hw) (.inl hplace)
      · exact apart_allOf hp hin sibling.id (.inl rfl) hw
    · refine fun m hm => ⟨fun hx => hr.not_below hm (hbelow _ hx), fun hx => hr.not_below hm ?_⟩
      exact hx ▸ (below_child _ _).trans_within hin

end PartsAt

/-- What becomes of the parts of a composition. -/
theorem flattened_lands (id : SchemaId) (count : Nat) (nodes siblings : List SchemaNode) :
    Lands id (do
      let slots ← get
      match ← Interpretation.ofSchema (Composition.flatten id ((nodes ++ siblings).map (partShape? slots))) with
      | some merged => return merged
      | none => return .intersection (nodes ++ siblings)) fun shape s =>
        PartsAt s id count nodes siblings → ShapeAt s id shape := by
  refine Lands.bind Lands.get (fun hs h => h.trans hs) fun slots => ?_
  refine Lands.bind (Lands.ofSchema fun answer hanswer s _ => hanswer) (fun _ h => h) fun answer => ?_
  cases answer with
  | some merged => exact Lands.pure fun s hr hmerged hslots hparts => hparts.shapeAt_merged hr hslots hmerged
  | none => exact Lands.pure fun s hr _ _ hparts => hparts.shapeAt_intersection hr

theorem composition_lands (hvisit : ∀ tree id, Lands id (visit tree id) fun n s => NodeAt s id n) (entries : Entries)
    (id : SchemaId) (parts : List Tree) :
    Lands id (composition visit entries id parts) fun shape s => ShapeAt s id shape := by
  have hprepare {nodes : List SchemaNode} {s : Slots}
      (hnodes : nodes.map SchemaNode.id = (indexed parts).map (fun p => (id.child "allOf").child (toString p.1)) ∧
        ∀ n ∈ nodes, ShapeAt s n.id n.shape) {siblings : List SchemaNode}
      (hsiblings : siblings = [] ∨ ∃ shape, ObjectAt s id shape ∧
        siblings = [SchemaNode.ofShape ((id.child "allOf").child (toString parts.length)) shape]) :
      PartsAt s id parts.length nodes siblings := by
    refine ⟨pairwise_apart_of_indexed (indexed_pairwise parts) hnodes.1, fun c hc => ?_, hnodes.2, hsiblings⟩
    obtain ⟨p, hp, he⟩ := exists_index hnodes.1 hc
    exact ⟨p.1, List.mem_range.1 (List.of_mem_zip hp).1, he⟩
  rw [composition]
  refine Lands.bind (Lands.mapM (fun p => (id.child "allOf").child (toString p.1)) ?_ _) ?_ fun nodes => ?_
  · rintro ⟨index, part⟩
    exact (hvisit part _).inside ((below_child _ _).trans_within (below_child _ _).within).within
  · exact fun hs h => ⟨h.1, fun n hn => (h.2 n hn).mono hs⟩
  · dsimp only
    split
    · refine Lands.bind (object_lands hvisit entries id) (fun hs h => h.mono hs) fun shape => ?_
      exact (flattened_lands id _ nodes _).mono fun merged s _ hmerged hobject hnodes =>
        hmerged (hprepare hnodes (.inr ⟨shape, hobject, rfl⟩))
    · exact (flattened_lands id _ nodes []).mono fun merged s _ hmerged hnodes => hmerged (hprepare hnodes (.inl rfl))

/-! ## Several types -/

theorem severalTypes_lands (hvisit : ∀ tree id, Lands id (visit tree id) fun n s => NodeAt s id n)
    (declared : List String) (entries : Entries) (id : SchemaId) :
    Lands id (severalTypes visit declared entries id) fun shape s => ShapeAt s id shape := by
  rw [severalTypes]
  refine Lands.bind (Lands.mapM (fun p => (id.child "type").child (toString p.1)) ?_ _) ?_ fun nodes => ?_
  · rintro ⟨index, type⟩
    have hin : Within id ((id.child "type").child (toString index)) :=
      ((below_child _ _).trans_within (below_child _ _).within).within
    exact Lands.bind ((typed_lands hvisit type entries _).inside hin) (steady_shapeAt _) fun shape =>
      Lands.pure fun s _ h => ⟨rfl, h⟩
  · exact fun hs h => ⟨h.1, fun n hn => (h.2 n hn).mono hs⟩
  · refine Lands.pure fun s hr h => .of_children hr (fun c hc => ?_) ?_ h.2 (by simp)
    · obtain ⟨p, -, he⟩ := exists_index h.1 hc
      exact he ▸ (below_child _ _).trans_within (below_child _ _).within
    · exact pairwise_apart_of_indexed (indexed_pairwise declared) h.1

/-! ## Nodes -/

/-- The shape of an enumeration is one. -/
theorem enumeration_shape {id : SchemaId} {values : List Tree} {p : Shape × Bool} (h : enumeration id values = .ok p) :
    ∃ found, p.1 = .enumeration found := by
  unfold enumeration at h
  cases hliterals : literals id values with
  | error e =>
    rw [hliterals] at h
    cases h
  | ok answer =>
    rw [hliterals] at h
    obtain ⟨found, hasNull⟩ := answer
    simp only [bind, Except.bind] at h
    split at h
    · cases h
    · cases h
      exact ⟨found, rfl⟩

/-- An enumeration is a leaf and no reference. -/
theorem enumeration_leaf {id : SchemaId} {values : List Tree} {p : Shape × Bool} (h : enumeration id values = .ok p) :
    p.1.children = [] ∧ ∀ t, p.1 ≠ .reference t := by
  obtain ⟨found, hfound⟩ := enumeration_shape h
  exact ⟨by rw [hfound]; rfl, by simp [hfound]⟩

theorem shape_lands (hr : r.Rooted) (hvisit : ∀ tree id, Lands id (visit tree id) fun n s => NodeAt s id n)
    (entries : Entries) (id : SchemaId) :
    Lands id (shape r visit entries id) fun p s => ShapeAt s id p.1 := by
  have hplain {x : Interpretation Shape} (hx : Lands id x fun shape s => ShapeAt s id shape) :
      Lands id (do return (← x, false)) fun p s => ShapeAt s id p.1 :=
    Lands.bind hx (steady_shapeAt id) fun shape => Lands.pure fun s _ h => h
  unfold shape
  dsimp only
  split
  · next values _ =>
    refine Lands.ofSchema fun p hp s hready => ?_
    obtain ⟨hchildren, hreference⟩ := enumeration_leaf hp
    exact .of_leaf hready hchildren hreference
  · split
    · exact union_lands hr hvisit entries id _ _
    · split
      · exact hplain (composition_lands hvisit entries id _)
      · split
        · exact hplain (severalTypes_lands hvisit _ entries id)
        · exact hplain (typed_lands hvisit _ entries id)
        · split
          · exact hplain ((object_lands hvisit entries id).mono fun _ _ hready h => h.shapeAt hready)
          · split
            · exact hplain (array_lands hvisit entries id)
            · split
              · refine Lands.bind (reference_lands hr hvisit id _ id) (fun hs h => hs.opened h) fun k => ?_
                refine Lands.pure fun s hready hk => ⟨fun ht => ?_, ?_⟩
                · cases ht
                  exact hk
                · exact (Placed.empty s (Below id)).subset fun m hm => by
                    obtain ⟨c, hc, -⟩ := hm.cases_children
                    cases hc
              · exact Lands.pure fun s hready => .of_leaf hready rfl (by simp)

theorem level_lands (hr : r.Rooted) (hvisit : ∀ tree id, Lands id (visit tree id) fun n s => NodeAt s id n)
    (tree : Tree) (id : SchemaId) : Lands id (level r visit tree id) fun n s => NodeAt s id n := by
  unfold level
  split
  · exact Lands.pure fun s hready => nodeAt_unknown hready
  · refine Lands.bind (shape_lands hr hvisit _ id) (fun hs h => h.mono hs) fun p => ?_
    exact Lands.pure fun s _ h => ⟨rfl, h⟩

end Levels

/-- Interpretation puts a node at its place. -/
theorem node_lands {r : Resolver} (hr : r.Rooted) : ∀ (depth : Nat) (tree : Tree) (id : SchemaId),
    Lands id (node r depth tree id) fun n s => NodeAt s id n
  | 0, _, _ => Lands.throw
  | depth + 1, tree, id => level_lands hr (node_lands hr depth) tree id

theorem visit_lands {r : Resolver} (hr : r.Rooted) (tree : Tree) (id : SchemaId) :
    Lands id (visit r tree id) fun n s => NodeAt s id n := node_lands hr _ tree id

end Interpretation

end ContractBindings
