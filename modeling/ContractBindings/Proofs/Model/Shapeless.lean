import ContractBindings.Proofs.Schema.Chains

/-!
# Schemas without a shape

A schema has no shape of its own, or it refers to a definition from which the chain of references ends at one without a shape
(`SchemaGraph.Shapeless`). The definition at the end is found by following the chain, which stops at a definition that was
passed before. Where the chain ends, no definition is passed twice, so the number of definitions and one more is fuel enough
(`shapelessEnd_eq_some_iff`); where it comes to a cycle it ends nowhere and nothing is found (`not_endsShapeless_of_cycle`).
-/

namespace ContractBindings

open Relation (ReflTransGen TransGen)

namespace SchemaGraph

variable {g : SchemaGraph} {j k t last : SchemaId}

/-! ## Ends of chains -/

/-- A definition without a shape. -/
def IsShapeless (g : SchemaGraph) (k : SchemaId) : Prop := ∃ node, g.node? k = some node ∧ node.shape = .unknown

/-- The chain of references from a definition ends at one without a shape. -/
def EndsShapeless (g : SchemaGraph) (k : SchemaId) : Prop := ∃ last, ReflTransGen g.SendsOn k last ∧ g.IsShapeless last

/-- A schema has no shape, or the chain of the definition that it refers to ends without one. -/
def Shapeless (g : SchemaGraph) (n : SchemaNode) : Prop :=
  n.shape = .unknown ∨ ∃ t, n.shape = .reference t ∧ g.EndsShapeless t

theorem IsShapeless.target?_eq_none (h : g.IsShapeless k) : g.target? k = none := by
  obtain ⟨node, hnode, hshape⟩ := h
  rw [target?_of_node? hnode, hshape]
  rfl

theorem EndsShapeless.of_sendsOn (h : g.SendsOn j k) (hk : g.EndsShapeless k) : g.EndsShapeless j := by
  obtain ⟨last, hway, hlast⟩ := hk
  exact ⟨last, .head h hway, hlast⟩

/-- A definition whose chain ends without a shape has none, or sends on to such a definition. -/
theorem EndsShapeless.cases (h : g.EndsShapeless k) :
    g.IsShapeless k ∨ ∃ t node, g.node? k = some node ∧ node.shape = .reference t ∧ g.EndsShapeless t := by
  obtain ⟨last, hway, hlast⟩ := h
  rcases ReflTransGen.cases_head hway with rfl | ⟨t, hstep, hway⟩
  · exact .inl hlast
  · obtain ⟨node, hnode, hshape⟩ := exists_node_of_sendsOn hstep
    exact .inr ⟨t, node, hnode, hshape, last, hway, hlast⟩

/-- A chain that ends can be followed only so far. -/
theorem acc_of_end (hway : ReflTransGen g.SendsOn k last) (hlast : g.target? last = none) :
    Acc (fun t j => g.SendsOn j t) k := by
  induction hway using ReflTransGen.head_induction_on with
  | refl =>
    refine .intro last fun t ht => ?_
    rw [SendsOn, hlast] at ht
    cases ht
  | head hstep _ ih =>
    refine .intro _ fun t ht => ?_
    obtain rfl := Option.some.inj (Eq.trans (Eq.symm hstep) ht)
    exact ih

/-- A chain that comes to a cycle ends nowhere. -/
theorem not_endsShapeless_of_cycle (hway : ReflTransGen g.SendsOn k j) (hcycle : TransGen g.SendsOn j j) :
    ¬ g.EndsShapeless k := by
  rintro ⟨last, hend, hlast⟩
  exact not_cycle_of_acc (acc_of_end hend hlast.target?_eq_none) hway hcycle

end SchemaGraph

namespace Lowering

open SchemaGraph

variable {g : SchemaGraph} {k last : SchemaId}

/-! ## Following a chain -/

theorem sendsOn_of_node? {node : SchemaNode} {t : SchemaId} (hnode : g.node? k = some node)
    (hshape : node.shape = .reference t) : g.SendsOn k t := by
  rw [SendsOn, target?_of_node? hnode, hshape]
  rfl

theorem exists_definition_of_node? {node : SchemaNode} (h : g.node? k = some node) :
    ∃ d ∈ g.definitions, d.id = k ∧ d.node = .ok node := by
  obtain ⟨d, hd, hnode⟩ := Option.bind_eq_some_iff.1 h
  refine ⟨d, List.mem_of_find?_eq_some hd, beq_iff_eq.1 (List.find?_some hd :), ?_⟩
  cases hok : d.node with
  | error e =>
    rw [hok] at hnode
    cases hnode
  | ok node' =>
    rw [hok] at hnode
    exact congrArg Except.ok (Option.some.inj hnode)

theorem mem_ids_of_node? {node : SchemaNode} (h : g.node? k = some node) : k ∈ g.definitions.map (·.id) := by
  obtain ⟨d, hd, rfl, -⟩ := exists_definition_of_node? h
  exact List.mem_map_of_mem hd

/-- What is found is a definition without a shape, and the chain leads to it. -/
theorem shapelessEnd_sound : ∀ (fuel : Nat) (passed : List SchemaId) (k : SchemaId),
    shapelessEnd g fuel passed k = some last → ReflTransGen g.SendsOn k last ∧ g.IsShapeless last
  | 0, _, _, h => by cases h
  | fuel + 1, passed, k, h => by
    rw [shapelessEnd] at h
    split at h
    · cases h
    · split at h
      · cases h
      · next node hnode =>
        split at h
        · next hshape =>
          obtain rfl := Option.some.inj h
          exact ⟨.refl, node, hnode, hshape⟩
        · next t hshape =>
          obtain ⟨hway, hlast⟩ := shapelessEnd_sound fuel (k :: passed) t h
          exact ⟨.head (sendsOn_of_node? hnode hshape) hway, hlast⟩
        · cases h

/-- While definitions on a chain that ends have been passed, and fewer than there are, the next one is new and there is fuel
for it. -/
theorem unpassed_of_end (hway : ReflTransGen g.SendsOn k last) (hlast : g.IsShapeless last) {node : SchemaNode}
    (hnode : g.node? k = some node) {fuel : Nat} {passed : List SchemaId} (hnodup : passed.Nodup)
    (hsubset : passed ⊆ g.definitions.map (·.id)) (hpassed : ∀ j ∈ passed, TransGen g.SendsOn j k)
    (hfuel : g.definitions.length + 1 ≤ fuel + passed.length) :
    passed.contains k = false ∧ (k :: passed).Nodup ∧ k :: passed ⊆ g.definitions.map (·.id) ∧
      ∃ rest, fuel = rest + 1 := by
  have hnew : k ∉ passed := fun hmem =>
    not_cycle_of_acc (acc_of_end hway hlast.target?_eq_none) .refl (hpassed k hmem)
  have hnodup' : (k :: passed).Nodup := List.nodup_cons.2 ⟨hnew, hnodup⟩
  have hsubset' : k :: passed ⊆ g.definitions.map (·.id) := List.cons_subset.2 ⟨mem_ids_of_node? hnode, hsubset⟩
  have hle := (List.subperm_of_subset hnodup' hsubset').length_le
  rw [List.length_cons, List.length_map] at hle
  exact ⟨by simpa using hnew, hnodup', hsubset', fuel - 1, by omega⟩

/-- The end of a chain is found with enough fuel: what is passed on the way are different definitions. -/
theorem shapelessEnd_complete (hway : ReflTransGen g.SendsOn k last) (hlast : g.IsShapeless last) :
    ∀ (fuel : Nat) (passed : List SchemaId), passed.Nodup → passed ⊆ g.definitions.map (·.id) →
      (∀ j ∈ passed, TransGen g.SendsOn j k) → g.definitions.length + 1 ≤ fuel + passed.length →
        shapelessEnd g fuel passed k = some last := by
  induction hway using ReflTransGen.head_induction_on with
  | refl =>
    obtain ⟨node, hnode, hshape⟩ := hlast
    intro fuel passed hnodup hsubset hpassed hfuel
    obtain ⟨hnew, -, -, fuel, rfl⟩ := unpassed_of_end .refl ⟨node, hnode, hshape⟩ hnode hnodup hsubset hpassed hfuel
    rw [shapelessEnd, hnew, hnode]
    simp [hshape]
  | @head k t hstep hway ih =>
    obtain ⟨node, hnode, hshape⟩ := exists_node_of_sendsOn hstep
    intro fuel passed hnodup hsubset hpassed hfuel
    obtain ⟨hnew, hnodup', hsubset', fuel, rfl⟩ :=
      unpassed_of_end (.head hstep hway) hlast hnode hnodup hsubset hpassed hfuel
    rw [shapelessEnd, hnew, hnode]
    simp only [hshape, Bool.false_eq_true, ↓reduceIte]
    refine ih fuel (k :: passed) hnodup' hsubset' ?_ (by rw [List.length_cons]; omega)
    intro j hj
    rcases List.mem_cons.1 hj with rfl | hj
    · exact .single hstep
    · exact (hpassed j hj).tail hstep

/-- The end of a chain is found exactly if it is a definition without a shape. -/
theorem shapelessEnd_eq_some_iff : shapelessEnd g (g.definitions.length + 1) [] k = some last ↔
    ReflTransGen g.SendsOn k last ∧ g.IsShapeless last := by
  constructor
  · exact shapelessEnd_sound _ _ _
  · rintro ⟨hway, hlast⟩
    exact shapelessEnd_complete hway hlast _ [] List.nodup_nil (List.nil_subset _) (by simp) (by simp)

theorem shapelessEnd_isSome_iff : (shapelessEnd g (g.definitions.length + 1) [] k).isSome = true ↔ g.EndsShapeless k := by
  simp only [Option.isSome_iff_exists, shapelessEnd_eq_some_iff, EndsShapeless]

variable {node : SchemaNode}

/-- A node that is no definition stands for a definition without a shape if it refers to one over any chain. -/
theorem shapelessDefinition_isSome_iff (h : g.defines node.id = false) :
    (shapelessDefinition g node).isSome = true ↔ ∃ t, node.shape = .reference t ∧ g.EndsShapeless t := by
  unfold shapelessDefinition
  rw [h]
  cases hshape : node.shape with
  | reference t => simp [shapelessEnd_isSome_iff]
  | _ => simp

/-- A node that is a definition stands for one without a shape if its own chain ends there. -/
theorem shapelessDefinition_isSome_iff_of_defines (h : g.defines node.id = true) :
    (shapelessDefinition g node).isSome = true ↔ g.EndsShapeless node.id := by
  unfold shapelessDefinition
  rw [h]
  simp [shapelessEnd_isSome_iff]

end Lowering

end ContractBindings
