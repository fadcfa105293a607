import ContractBindings.Proofs.Lookup
import ContractBindings.Proofs.Schema.Identity
import ContractBindings.Proofs.Schema.Inside
import ContractBindings.Schema.Interpretation

/-!
# Where the nodes of definitions stand

A node inside a definition stands below the definition, unless it was taken over from a definition that was finished
before; such nodes are `Stored`. In the region below one definition nodes are known by their identities (`Placed`).
Where all definitions are component schemas, nothing stored stands below a definition that is still being interpreted
(`Slots.not_below_of_sheltered`). At a place with nothing stored below it (`Slots.Ready`), what is made of placed parts is
placed (`Placed.union`, `Placed.list`).
-/

namespace ContractBindings

open SchemaId

namespace Slots

/-- The definition is finished with a canonical form. -/
def Finished (s : Slots) (k : SchemaId) (n : SchemaNode) : Prop := s.lookup k = some (some (.ok n))

/-- A node stands in a definition that is finished, below it. -/
def Stored (s : Slots) (m : SchemaNode) : Prop := ∃ k n, s.Finished k n ∧ n.shape.Holds m ∧ Below k m.id

/-- All definitions are component schemas. -/
def Direct (s : Slots) : Prop := ∀ k ∈ s.map (·.1), k.IsComponent

/-- The place is within a definition that is still being interpreted. -/
def Sheltered (s : Slots) (id : SchemaId) : Prop := ∃ k, s.lookup k = some none ∧ Within k id

/-- Nothing that is finished or opened gets lost. -/
structure Extends (s s' : Slots) : Prop where
  finished : ∀ {k n}, s.Finished k n → s'.Finished k n
  opened : ∀ {k}, k ∈ s.map (·.1) → k ∈ s'.map (·.1)

theorem Extends.trans {s s' s'' : Slots} (h : s.Extends s') (h' : s'.Extends s'') : s.Extends s'' :=
  ⟨fun hk => h'.finished (h.finished hk), fun hk => h'.opened (h.opened hk)⟩

/-- Definitions keep their places and their content, new ones come after them and are finished, and every identity occurs
once and is the pointer of a node. -/
structure Grows (s s' : Slots) : Prop where
  isPrefix : s <+: s'
  kept : ∀ {k v}, s.lookup k = some v → s'.lookup k = some v
  closed : ∀ {k}, s'.lookup k = some none → s.lookup k = some none
  nodup : (s.map (·.1)).Nodup → (s'.map (·.1)).Nodup
  rooted : ∀ k ∈ s'.map (·.1), k ∈ s.map (·.1) ∨ k.pointer.toList.head? = some '#'

variable {s s' s'' : Slots} {id : SchemaId} {m : SchemaNode}

theorem Stored.mono (h : s.Stored m) (hs : s.Extends s') : s'.Stored m := by
  obtain ⟨k, n, hk, hm⟩ := h
  exact ⟨k, n, hs.finished hk, hm⟩

namespace Grows

theorem refl (s : Slots) : s.Grows s := ⟨List.prefix_rfl, id, id, id, fun _ h => .inl h⟩

theorem trans (h : s.Grows s') (h' : s'.Grows s'') : s.Grows s'' where
  isPrefix := h.isPrefix.trans h'.isPrefix
  kept hk := h'.kept (h.kept hk)
  closed hk := h.closed (h'.closed hk)
  nodup hn := h'.nodup (h.nodup hn)
  rooted k hk := (h'.rooted k hk).elim (h.rooted k) .inr

theorem opened (h : s.Grows s') {k : SchemaId} (hk : k ∈ s.map (·.1)) : k ∈ s'.map (·.1) := by
  rw [← lookup_isSome_iff] at hk ⊢
  obtain ⟨v, hv⟩ := Option.isSome_iff_exists.1 hk
  simp [h.kept hv]

theorem toExtends (h : s.Grows s') : s.Extends s' := ⟨fun hk => h.kept hk, h.opened⟩

theorem direct (h : s.Grows s') (hd : s'.Direct) : s.Direct := fun k hk => hd k (h.opened hk)

end Grows

/-- Nothing stored stands below a place inside a definition that is still being interpreted. -/
theorem not_below_of_sheltered (hd : s.Direct) (hid : s.Sheltered id) (hm : s.Stored m) : ¬ Below id m.id := by
  intro hbelow
  obtain ⟨k, hk, hw⟩ := hid
  obtain ⟨k', n, hk', -, hbelow'⟩ := hm
  have hmem {k : SchemaId} {v : Option (Except SchemaError SchemaNode)} (h : s.lookup k = some v) :
      k ∈ s.map (·.1) := lookup_isSome_iff.1 (by simp [h])
  have heq : k = k' := (hd k (hmem hk)).eq_of_below (hd k' (hmem hk')) (hw.trans_below hbelow) hbelow'
  rw [Finished, ← heq, hk] at hk'
  cases hk'

end Slots

/-! ## Placed nodes -/

/-- The nodes of a set are stored or stand in a region where they are known by their identities; their references lead
to definitions. -/
structure Placed (s : Slots) (R : SchemaId → Prop) (H : SchemaNode → Prop) : Prop where
  place : ∀ {m}, H m → R m.id ∨ s.Stored m
  unique : ∀ {m m'}, H m → H m' → R m.id → m.id = m'.id → m = m'
  targets : ∀ {m}, H m → ∀ {t}, m.shape = .reference t → t ∈ s.map (·.1)

/-- A shape at a place: the nodes in it stand below the place. -/
structure ShapeAt (s : Slots) (id : SchemaId) (shape : Shape) : Prop where
  target : ∀ {t}, shape = .reference t → t ∈ s.map (·.1)
  inside : Placed s (Below id) shape.Holds

/-- A node at a place. -/
structure NodeAt (s : Slots) (id : SchemaId) (n : SchemaNode) : Prop where
  id_eq : n.id = id
  shape : ShapeAt s id n.shape

/-- Where all definitions are component schemas, every one that is finished stands at its place. -/
def Slots.Good (s : Slots) : Prop := s.Direct → ∀ {k n}, s.Finished k n → NodeAt s k n

/-- All definitions are component schemas, those that are finished stand at their places, and nothing in them stands below
a given place. -/
structure Slots.Ready (s : Slots) (id : SchemaId) : Prop where
  good : s.Good
  direct : s.Direct
  not_below : ∀ {m}, s.Stored m → ¬ Below id m.id

namespace Slots.Ready

variable {s s' : Slots} {id j : SchemaId} {m : SchemaNode}

theorem back (h : s'.Ready id) (hs : s.Grows s') (hg : s.Good) : s.Ready id where
  good := hg
  direct := hs.direct h.direct
  not_below hm := h.not_below (hm.mono hs.toExtends)

theorem within (h : s.Ready id) (hj : Within id j) : s.Ready j where
  good := h.good
  direct := h.direct
  not_below hm hbelow := h.not_below hm (hj.trans_below hbelow)

end Slots.Ready

namespace Placed

variable {s s' : Slots} {R R' : SchemaId → Prop} {H H' : SchemaNode → Prop}

theorem mono (h : Placed s R H) (hs : s.Extends s') : Placed s' R H where
  place hm := (h.place hm).imp_right (·.mono hs)
  unique := h.unique
  targets hm _ ht := hs.opened (h.targets hm ht)

theorem subset (h : Placed s R H) (hH : ∀ m, H' m → H m) : Placed s R H' where
  place hm := h.place (hH _ hm)
  unique hm hm' := h.unique (hH _ hm) (hH _ hm')
  targets hm := h.targets (hH _ hm)

theorem empty (s : Slots) (R : SchemaId → Prop) : Placed s R fun _ => False where
  place h := h.elim
  unique h := h.elim
  targets h := h.elim

/-- A region may be widened by what holds nothing stored. -/
theorem widen (h : Placed s R H) (hR : ∀ x, R x → R' x) (hclear : ∀ m, s.Stored m → ¬ R' m.id) : Placed s R' H where
  place hm := (h.place hm).imp_left (hR _)
  unique hm hm' hr := by
    rcases h.place hm with hr' | hst
    · exact h.unique hm hm' hr'
    · exact absurd hr (hclear _ hst)
  targets := h.targets

/-- Sets placed in disjoint regions are placed together. -/
theorem union (h : Placed s R H) (h' : Placed s R' H') (hdisjoint : ∀ x, R x → ¬ R' x)
    (hclear : ∀ m, s.Stored m → ¬ R m.id ∧ ¬ R' m.id) : Placed s (fun x => R x ∨ R' x) fun m => H m ∨ H' m where
  place hm := hm.elim (fun hm => (h.place hm).imp_left .inl) fun hm => (h'.place hm).imp_left .inr
  unique {m m'} hm hm' hr heq := by
    have hin {m : SchemaNode} (hm : H m) (hr : R m.id ∨ R' m.id) : R m.id := by
      rcases h.place hm with hr' | hst
      · exact hr'
      · exact absurd hr (fun hr => hr.elim (hclear m hst).1 (hclear m hst).2)
    have hin' {m : SchemaNode} (hm : H' m) (hr : R m.id ∨ R' m.id) : R' m.id := by
      rcases h'.place hm with hr' | hst
      · exact hr'
      · exact absurd hr (fun hr => hr.elim (hclear m hst).1 (hclear m hst).2)
    rcases hm with hm | hm <;> rcases hm' with hm' | hm'
    · exact h.unique hm hm' (hin hm hr) heq
    · exact absurd (heq ▸ hin' hm' (heq ▸ hr)) (hdisjoint _ (hin hm hr))
    · exact absurd (heq ▸ hin' hm hr) (hdisjoint _ (hin hm' (heq ▸ hr)))
    · exact h'.unique hm hm' (hin' hm hr) heq
  targets hm _ ht := hm.elim (fun hm => h.targets hm ht) fun hm => h'.targets hm ht

/-- Stored nodes are placed in no region of their own. -/
theorem stored (hg : s.Good) (hd : s.Direct) : Placed s (fun _ => False) fun m => s.Stored m where
  place hm := .inr hm
  unique _ _ h := h.elim
  targets hm _ ht := by
    obtain ⟨k, n, hk, hholds, -⟩ := hm
    exact (hg hd hk).shape.inside.targets hholds ht

theorem singleton {c : SchemaNode} (ht : ∀ {t}, c.shape = .reference t → t ∈ s.map (·.1)) :
    Placed s (fun x => x = c.id) fun m => m = c where
  place hm := .inl (congrArg SchemaNode.id hm)
  unique hm hm' _ _ := hm.trans hm'.symm
  targets hm _ h := ht (hm ▸ h)

/-- A node with what stands in it. -/
theorem node {c : SchemaNode} (hc : ShapeAt s c.id c.shape) (hclear : ∀ m, s.Stored m → ¬ Within c.id m.id) :
    Placed s (Within c.id) fun m => m = c ∨ c.shape.Holds m :=
  (singleton hc.target).union hc.inside (fun _ hx hbelow => not_below_self _ (hx ▸ hbelow))
    fun m hm => ⟨fun h => hclear m hm (.inl h), fun h => hclear m hm (.inr h)⟩

/-- Nodes apart from each other, with what stands in them. -/
theorem list : ∀ {nodes : List SchemaNode}, nodes.Pairwise (fun a b => Apart a.id b.id) →
    (∀ c ∈ nodes, ShapeAt s c.id c.shape) → (∀ m, s.Stored m → ∀ c ∈ nodes, ¬ Within c.id m.id) →
      Placed s (fun x => ∃ c ∈ nodes, Within c.id x) fun m => ∃ c ∈ nodes, m = c ∨ c.shape.Holds m
  | [], _, _, _ => by simpa using empty s _
  | c :: nodes, hapart, hshape, hclear => by
    rw [List.pairwise_cons] at hapart
    have hnode := node (hshape c List.mem_cons_self) fun m hm => hclear m hm c List.mem_cons_self
    have hrest := list hapart.2 (fun c hc => hshape c (List.mem_cons_of_mem _ hc))
      fun m hm c hc => hclear m hm c (List.mem_cons_of_mem _ hc)
    have hunion := hnode.union hrest
      (fun x hx ⟨c', hc', hx'⟩ => hapart.1 c' hc' x hx hx')
      fun m hm => ⟨hclear m hm c List.mem_cons_self, fun ⟨c', hc', hx'⟩ =>
        hclear m hm c' (List.mem_cons_of_mem _ hc') hx'⟩
    simpa only [List.mem_cons, exists_eq_or_imp] using hunion

end Placed

namespace ShapeAt

variable {s s' : Slots} {id : SchemaId} {shape : Shape}

theorem mono (h : ShapeAt s id shape) (hs : s.Extends s') : ShapeAt s' id shape :=
  ⟨fun ht => hs.opened (h.target ht), h.inside.mono hs⟩

/-- A shape made of placed nodes below a place and of stored ones. -/
theorem of_placed {R : SchemaId → Prop} {H : SchemaNode → Prop} (h : Placed s R H) (hr : s.Ready id)
    (hR : ∀ x, R x → Below id x) (hH : ∀ m, shape.Holds m → H m ∨ s.Stored m)
    (ht : ∀ {t}, shape = .reference t → t ∈ s.map (·.1)) : ShapeAt s id shape := by
  refine ⟨ht, Placed.subset ?_ hH⟩
  refine (h.union (Placed.stored hr.good hr.direct) (fun _ _ h => h) ?_).widen ?_ fun m hm => hr.not_below hm
  · exact fun m hm => ⟨fun h => hr.not_below hm (hR _ h), fun h => h⟩
  · exact fun x hx => hx.elim (hR x) False.elim

/-- A shape whose nodes are those of a list of nodes apart from each other. -/
theorem of_list {nodes : List SchemaNode} (hr : s.Ready id) (hbelow : ∀ c ∈ nodes, Below id c.id)
    (hapart : nodes.Pairwise fun a b => Apart a.id b.id) (hshape : ∀ c ∈ nodes, ShapeAt s c.id c.shape)
    (hH : ∀ m, shape.Holds m → (∃ c ∈ nodes, m = c ∨ c.shape.Holds m) ∨ s.Stored m)
    (ht : ∀ {t}, shape = .reference t → t ∈ s.map (·.1)) : ShapeAt s id shape := by
  refine of_placed (Placed.list hapart hshape ?_) hr ?_ hH ht
  · exact fun m hm c hc hw => hr.not_below hm ((hbelow c hc).trans_within hw)
  · rintro x ⟨c, hc, hw⟩
    exact (hbelow c hc).trans_within hw

/-- A shape whose children stand apart below a place. -/
theorem of_children (hr : s.Ready id) (hbelow : ∀ c ∈ shape.children, Below id c.id)
    (hapart : shape.children.Pairwise fun a b => Apart a.id b.id)
    (hshape : ∀ c ∈ shape.children, ShapeAt s c.id c.shape) (ht : ∀ t, shape ≠ .reference t) :
    ShapeAt s id shape :=
  of_list hr hbelow hapart hshape (fun _ hm => .inl hm.cases_children) fun h => absurd h (ht _)

/-- A shape without nodes that is no reference. -/
theorem of_leaf (hr : s.Ready id) (hchildren : shape.children = []) (ht : ∀ t, shape ≠ .reference t) :
    ShapeAt s id shape :=
  of_children hr (by simp [hchildren]) (by simp [hchildren]) (by simp [hchildren]) ht

end ShapeAt

theorem NodeAt.mono {s s' : Slots} {id : SchemaId} {n : SchemaNode} (h : NodeAt s id n) (hs : s.Extends s') :
    NodeAt s' id n :=
  ⟨h.id_eq, h.shape.mono hs⟩

end ContractBindings
