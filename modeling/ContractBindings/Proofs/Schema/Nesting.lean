import ContractBindings.Proofs.Schema.Keywords

/-!
# Nodes that hold no node of their own identity

A node is *unnested* if neither it nor a node in it holds a node of its own identity. The nodes in a definition are known
by their identities, and a node is larger than what it holds, so nothing in a definition is nested. The schema of an
operation stands at a place of its own; as long as that is not within a definition, what was taken over from definitions
stands elsewhere, and the schema is unnested, too (`visit_unnests`).
-/

namespace ContractBindings

open SchemaId

/-- No node in a shape holds a node of its own identity. -/
def Shape.Unnested (s : Shape) : Prop := ∀ m, s.Holds m → ∀ k, m.shape.Holds k → k.id ≠ m.id

/-- Neither a node nor a node in it holds a node of its own identity. -/
def SchemaNode.Unnested (n : SchemaNode) : Prop := (∀ k, n.shape.Holds k → k.id ≠ n.id) ∧ n.shape.Unnested

theorem Shape.Unnested.child {s : Shape} (h : s.Unnested) {m : SchemaNode} (hm : m ∈ s.children) : m.Unnested :=
  ⟨h m (.child hm), fun k hk j hj => h k (.deeper hm hk) j hj⟩

/-- A shape is unnested if the nodes in it are known by their identities. -/
theorem Shape.unnested_of_unique {s : Shape}
    (h : ∀ m k, s.Holds m → s.Holds k → k.id = m.id → m.shape.Holds k → k = m) : s.Unnested := by
  intro m hm k hk heq
  obtain rfl := h m k hm (hm.trans hk) heq hk
  have hsize := hk.sizeOf_lt
  have hshape := k.sizeOf_shape_lt
  omega

namespace Slots

variable {s s' : Slots} {id : SchemaId} {n : SchemaNode}

/-- A node at a place that is not within a definition is unnested. -/
theorem Ready.unnested (hr : s.Ready id) (h : NodeAt s id n) (hfree : ∀ k ∈ s.map (·.1), ¬ Within k id) :
    n.Unnested := by
  have hown {m : SchemaNode} (hm : n.shape.Holds m) (heq : m.id = n.id) : False := by
    rcases h.shape.inside.place hm with hbelow | ⟨k, node, hk, -, hbelow⟩
    · rw [heq, h.id_eq] at hbelow
      exact not_below_self id hbelow
    · rw [heq, h.id_eq] at hbelow
      exact hfree k (lookup_isSome_iff.1 (by rw [hk]; rfl)) hbelow.within
  refine ⟨fun k hk heq => hown hk heq, Shape.unnested_of_unique fun m k hm hk heq hmk => ?_⟩
  rcases h.shape.inside.place hm with hbelow | ⟨j, node, hj, hheld, hbelow⟩
  · exact (h.shape.inside.unique hm hk hbelow heq.symm).symm
  · -- the node was taken over from a definition, and so was what it holds
    have hat := hr.good hr.direct hj
    exact (hat.shape.inside.unique hheld (hheld.trans hmk) hbelow heq.symm).symm

/-- Where all definitions are component schemas, a node is unnested unless it stands within one of them. -/
def Unnests (s : Slots) (n : SchemaNode) : Prop := s.Direct → (∀ k ∈ s.map (·.1), ¬ Within k n.id) → n.Unnested

theorem Unnests.mono (h : s.Unnests n) (hs : s.Grows s') : s'.Unnests n :=
  fun hdirect hfree => h (hs.direct hdirect) fun k hk => hfree k (hs.opened hk)

theorem unnests_unknown (s : Slots) (id : SchemaId) : s.Unnests (SchemaNode.unknown id) := by
  have hempty (m : SchemaNode) : ¬ (SchemaNode.unknown id).shape.Holds m := by
    intro hm
    obtain ⟨c, hc, -⟩ := hm.cases_children
    cases hc
  exact fun _ _ => ⟨fun k hk => absurd hk (hempty k), fun m hm => absurd hm (hempty m)⟩

end Slots

namespace Interpretation

/-- A node has the identity it is interpreted for. -/
theorem visit_id (r : Resolver) (tree : Tree) (id : SchemaId) (s : Slots) :
    Ends (visit r tree id) s (fun n _ => n.id = id) fun _ _ => True := by
  unfold visit
  generalize bound r.root = depth
  cases depth with
  | zero => exact ends_throw.2 trivial
  | succ depth =>
    rw [node, level]
    split
    · exact ends_pure.2 rfl
    · exact .after fun _ _ => ends_pure.2 rfl

/-- The interpretation of a schema of an operation answers with a node that is unnested. -/
theorem visit_unnests {r : Resolver} (hr : r.Rooted) (tree : Tree) (place : SchemaId) {s : Slots} (hs : s.Good) :
    Ends (visit r tree (place.child "schema")) s (fun n s' => s'.Unnests n) fun _ _ => True := by
  have hlands := visit_lands hr tree (place.child "schema") s hs
  refine (hlands.and (visit_id r tree (place.child "schema") s)).mono ?_ fun _ _ _ => trivial
  rintro n s' ⟨⟨-, hgood, hat⟩, hid⟩ hdirect hfree
  rw [hid] at hfree
  have hready : s'.Ready (place.child "schema") := by
    refine ⟨hgood, hdirect, fun {m} hm hbelow => ?_⟩
    -- what is stored stands below a component schema, which does not stand above the place nor below it
    obtain ⟨k, node, hk, -, hbelow'⟩ := hm
    have hmem : k ∈ s'.map (·.1) := lookup_isSome_iff.1 (by rw [hk]; rfl)
    rcases hbelow'.within_or_within hbelow with hw | hw
    · exact hfree k hmem hw
    · rcases hw with rfl | hb
      · exact hfree _ hmem (.inl rfl)
      · exact (hdirect k hmem).not_below_schema hb
  exact hready.unnested (hat hready) hfree

end Interpretation

end ContractBindings
