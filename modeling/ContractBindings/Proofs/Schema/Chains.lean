import ContractBindings.Model.Lowering
import ContractBindings.Proofs.Schema.Relays

/-!
# Chains of references

A definition whose shape is a reference sends on to another one, which may send on, too. A chain of definitions that send
on to each other ends at a definition of another shape or without a canonical form, and then it does so after at most as
many steps as there are definitions, unless it comes to a cycle (`chainEnd?_isSome`). To ask whether a reference stands for
an object is to follow its chain, so that question comes to an end where the chain does (`acc_asks_iff`).

In the graph of a document a chain ends exactly if no cycle of relays is come to (`runAll_chains`). The check of all
references does not exclude such a cycle: all schemas on it are ends of chains of aliases for the resolver.
-/

namespace ContractBindings

open Relation (TransGen ReflTransGen)

namespace SchemaGraph

variable {g : SchemaGraph} {j k last t : SchemaId} {n : Nat}

/-! ## Chains -/

/-- The definition that a definition sends on to. -/
def target? (g : SchemaGraph) (k : SchemaId) : Option SchemaId := (g.get? k).bind Definition.target?

/-- A definition sends on to another. -/
def SendsOn (g : SchemaGraph) (j k : SchemaId) : Prop := g.target? j = some k

/-- The definition where a chain ends, if it does so after at most so many steps. -/
def chainEnd? (g : SchemaGraph) : Nat → SchemaId → Option SchemaId
  | 0, k => if (g.target? k).isNone then some k else none
  | n + 1, k =>
    match g.target? k with
    | some t => chainEnd? g n t
    | none => some k

/-- The chain of a definition ends at a definition that sends on to none, after at most as many steps as there are
definitions. -/
def Settles (g : SchemaGraph) (k : SchemaId) : Prop :=
  ∃ last ∈ g.definitions, g.chainEnd? g.definitions.length k = some last.id ∧ last.target? = none

instance : Decidable (g.Settles k) :=
  inferInstanceAs (Decidable (∃ last ∈ g.definitions, g.chainEnd? g.definitions.length k = some last.id ∧
    last.target? = none))

theorem chainEnd?_of_none (h : g.target? k = none) : g.chainEnd? n k = some k := by
  cases n with
  | zero => rw [chainEnd?, h]; rfl
  | succ n => rw [chainEnd?, h]

theorem chainEnd?_succ (h : g.SendsOn k t) : g.chainEnd? (n + 1) k = g.chainEnd? n t := by
  rw [chainEnd?, show g.target? k = some t from h]

theorem chainEnd?_zero (h : g.SendsOn k t) : g.chainEnd? 0 k = none := by
  rw [chainEnd?, show g.target? k = some t from h]
  rfl

/-- The end of a chain sends on to none, and the chain leads to it. -/
theorem chainEnd?_spec : ∀ {n : Nat} {k : SchemaId}, g.chainEnd? n k = some last →
    ReflTransGen g.SendsOn k last ∧ g.target? last = none
  | n, k, h => by
    cases htarget : g.target? k with
    | none =>
      rw [chainEnd?_of_none htarget] at h
      obtain rfl := Option.some.inj h
      exact ⟨.refl, htarget⟩
    | some t =>
      cases n with
      | zero =>
        rw [chainEnd?_zero htarget] at h
        cases h
      | succ n =>
        rw [chainEnd?_succ htarget] at h
        obtain ⟨hway, hlast⟩ := chainEnd?_spec h
        exact ⟨.head htarget hway, hlast⟩

/-- A chain that ends can be followed only so far. -/
theorem acc_of_chainEnd? : ∀ {n : Nat} {k : SchemaId}, g.chainEnd? n k = some last →
    Acc (fun t j => g.SendsOn j t) k
  | n, k, h => by
    refine .intro k fun t ht => ?_
    cases n with
    | zero =>
      rw [chainEnd?_zero ht] at h
      cases h
    | succ n =>
      rw [chainEnd?_succ ht] at h
      exact acc_of_chainEnd? h

/-- From where a chain can be followed only so far, no cycle is come to. -/
theorem not_cycle_of_acc (h : Acc (fun t j => g.SendsOn j t) k) (hway : ReflTransGen g.SendsOn k j) :
    ¬ TransGen g.SendsOn j j := by
  have hj : Acc (fun t j => g.SendsOn j t) j := by
    induction hway with
    | refl => exact h
    | tail _ hstep ih => exact ih.inv hstep
  exact fun hcycle => Interpretation.not_rel_self_of_acc hj.transGen (Relation.transGen_swap.2 hcycle)

/-- A chain that comes to no cycle ends before it has more steps than there are definitions: those that it has passed are
different ones. -/
theorem chainEnd?_isSome (hclosed : ∀ {j k}, g.SendsOn j k → k ∈ g.definitions.map (·.id)) : ∀ (n : Nat) (k : SchemaId)
    (passed : List SchemaId), passed.Nodup → passed ⊆ g.definitions.map (·.id) → k ∈ g.definitions.map (·.id) →
      (∀ j ∈ passed, TransGen g.SendsOn j k) → g.definitions.length ≤ n + passed.length →
        (∀ j, ReflTransGen g.SendsOn k j → ¬ TransGen g.SendsOn j j) → (g.chainEnd? n k).isSome = true := by
  intro n
  induction n with
  | zero =>
    intro k passed hnodup hsubset hk hpassed hlength hacyclic
    have hnew : k ∉ passed := fun hmem => hacyclic k .refl (hpassed k hmem)
    have hle := (List.subperm_of_subset (List.nodup_cons.2 ⟨hnew, hnodup⟩) (List.cons_subset.2 ⟨hk, hsubset⟩)).length_le
    rw [List.length_cons, List.length_map] at hle
    omega
  | succ n ih =>
    intro k passed hnodup hsubset hk hpassed hlength hacyclic
    cases htarget : g.target? k with
    | none =>
      rw [chainEnd?_of_none htarget]
      rfl
    | some t =>
      have hnew : k ∉ passed := fun hmem => hacyclic k .refl (hpassed k hmem)
      rw [chainEnd?_succ htarget]
      refine ih t (k :: passed) (List.nodup_cons.2 ⟨hnew, hnodup⟩) (List.cons_subset.2 ⟨hk, hsubset⟩) (hclosed htarget)
        ?_ ?_ fun j hj => hacyclic j (.head htarget hj)
      · intro j hj
        rcases List.mem_cons.1 hj with rfl | hj
        · exact .single htarget
        · exact (hpassed j hj).tail htarget
      · rw [List.length_cons]
        omega

theorem get?_of_mem (hn : (g.definitions.map (·.id)).Nodup) {definition : Definition} (h : definition ∈ g.definitions) :
    g.get? definition.id = some definition := by
  have hsome : (g.get? definition.id).isSome = true := List.find?_isSome.2 ⟨definition, h, beq_self_eq_true _⟩
  obtain ⟨found, hfound⟩ := Option.isSome_iff_exists.1 hsome
  have hid : found.id = definition.id := beq_iff_eq.1 (List.find?_some hfound :)
  rw [hfound, List.inj_on_of_nodup_map hn (List.mem_of_find?_eq_some hfound) h hid]

/-- In a graph that is closed, a chain ends exactly if it comes to no cycle. -/
theorem settles_iff (hn : (g.definitions.map (·.id)).Nodup)
    (hclosed : ∀ {j k}, g.SendsOn j k → k ∈ g.definitions.map (·.id)) (hk : k ∈ g.definitions.map (·.id)) :
    g.Settles k ↔ ∀ j, ReflTransGen g.SendsOn k j → ¬ TransGen g.SendsOn j j := by
  constructor
  · rintro ⟨last, -, hend, -⟩ j hj
    exact not_cycle_of_acc (acc_of_chainEnd? hend) hj
  · intro hacyclic
    have hsome := chainEnd?_isSome hclosed g.definitions.length k [] List.nodup_nil (List.nil_subset _) hk (by simp)
      (by simp) hacyclic
    obtain ⟨last, hlast⟩ := Option.isSome_iff_exists.1 hsome
    obtain ⟨hway, hnone⟩ := chainEnd?_spec hlast
    have hmem : last ∈ g.definitions.map (·.id) := by
      rcases ReflTransGen.cases_tail hway with rfl | ⟨j, -, hj⟩
      · exact hk
      · exact hclosed hj
    obtain ⟨definition, hdefinition, rfl⟩ := List.mem_map.1 hmem
    refine ⟨definition, hdefinition, hlast, ?_⟩
    rwa [target?, get?_of_mem hn hdefinition] at hnone

/-! ## Asking for objects -/

/-- Whether a shape stands for an object is asked of another shape: of a reference, that of its definition. -/
def Asks (g : SchemaGraph) (shape asked : Shape) : Prop :=
  ∃ k node, shape = .reference k ∧ g.node? k = some node ∧ asked = node.shape

theorem target?_of_node? {node : SchemaNode} (h : g.node? k = some node) : g.target? k = node.shape.target? := by
  obtain ⟨definition, hdefinition, hnode⟩ := Option.bind_eq_some_iff.1 h
  rw [target?, hdefinition, Option.bind_some, Definition.target?, hnode, Option.bind_some]

theorem exists_node_of_sendsOn (h : g.SendsOn k t) : ∃ node, g.node? k = some node ∧ node.shape = .reference t := by
  obtain ⟨definition, hdefinition, htarget⟩ := Option.bind_eq_some_iff.1 h
  obtain ⟨node, hnode, hshape⟩ := Option.bind_eq_some_iff.1 htarget
  exact ⟨node, Option.bind_eq_some_iff.2 ⟨definition, hdefinition, hnode⟩, Shape.eq_of_target? hshape⟩

/-- Asking whether a reference stands for an object comes to an end exactly if its chain does. -/
theorem acc_asks_iff : Acc (fun asked shape => g.Asks shape asked) (.reference k) ↔ Acc (fun t j => g.SendsOn j t) k := by
  constructor
  · intro h
    generalize hshape : Shape.reference k = shape at h
    induction h generalizing k with
    | intro shape _ ih =>
      subst hshape
      refine .intro k fun t ht => ?_
      obtain ⟨node, hnode, hreference⟩ := exists_node_of_sendsOn ht
      exact ih node.shape ⟨k, node, rfl, hnode, rfl⟩ hreference.symm
  · intro h
    induction h with
    | intro k _ ih =>
      refine .intro _ fun asked hasked => ?_
      obtain ⟨k', node, hk, hnode, rfl⟩ := hasked
      cases hk
      cases htarget : node.shape.target? with
      | some t =>
        rw [Shape.eq_of_target? htarget]
        exact ih t ((target?_of_node? hnode).trans htarget)
      | none =>
        refine .intro _ fun asked' hasked' => ?_
        obtain ⟨t, -, ht, -⟩ := hasked'
        rw [ht] at htarget
        cases htarget

/-- A shape that is no reference is not asked further. -/
theorem isObjectLike_of_target? {shape : Shape} (h : shape.target? = none) (fuel : Nat) :
    Lowering.isObjectLike g (fuel + 1) shape = Lowering.isObjectLike g 1 shape := by
  cases shape with
  | reference t => cases h
  | _ => rfl

/-- A reference stands for an object if the end of its chain is one, however long one is ready to ask. -/
theorem isObjectLike_of_chainEnd? : ∀ {n : Nat} {k : SchemaId} {fuel : Nat}, g.chainEnd? n k = some last →
    n + 2 ≤ fuel → Lowering.isObjectLike g fuel (.reference k) =
      (g.node? last).elim false fun node => Lowering.isObjectLike g 1 node.shape
  | n, k, fuel, h, hfuel => by
    obtain ⟨rest, rfl⟩ : ∃ rest, fuel = rest + 2 := ⟨fuel - 2, by omega⟩
    rw [Lowering.isObjectLike]
    cases htarget : g.target? k with
    | none =>
      rw [chainEnd?_of_none htarget] at h
      obtain rfl := Option.some.inj h
      cases hnode : g.node? k with
      | none => rfl
      | some node =>
        rw [target?_of_node? hnode] at htarget
        exact isObjectLike_of_target? htarget rest
    | some t =>
      cases n with
      | zero =>
        rw [chainEnd?_zero htarget] at h
        cases h
      | succ n =>
        rw [chainEnd?_succ htarget] at h
        obtain ⟨node, hnode, hshape⟩ := exists_node_of_sendsOn htarget
        rw [hnode, Option.elim_some, hshape]
        exact isObjectLike_of_chainEnd? h (by omega)

end SchemaGraph

/-! ## Documents -/

/-- From a definition a cycle of relays is come to. -/
def Document.Loops (d : Document) (k : SchemaId) : Prop := ∃ j, ReflTransGen d.Relay k j ∧ TransGen d.Relay j j

namespace Interpretation

open SchemaGraph

variable {r : Resolver} {d : Document} {calls : List Call}

/-- After calls that resolve their references, definitions of the graph send on to what they relay a reference to. -/
theorem runAll_sendsOn (hr : r.Serves d.root) (hcalls : ∀ c ∈ calls, c.On d.root)
    (hresolved : ∀ answer ∈ (runAll r d calls []).1, Resolved answer) :
    let g := (runAll r d calls []).2.graph
    (g.definitions.map (·.id)).Nodup ∧ (∀ j k, g.SendsOn j k → k ∈ g.definitions.map (·.id)) ∧
      ∀ j ∈ g.definitions.map (·.id), ∀ k, g.SendsOn j k ↔ d.Relay j k := by
  obtain ⟨-, hids, hlinks, -⟩ := runAll_closed hr hcalls hresolved
  have hnodup := ((runAll_walk hr hcalls []).keys_nodup).1
  have hrelaying : Slots.Relaying d (runAll r d calls []).2 := runAll_relaying hr calls fun k answer h => by cases h
  have hgraph : ((runAll r d calls []).2.graph.definitions.map (·.id)).Nodup := hids ▸ hnodup
  refine ⟨hgraph, fun j k hjk => ?_, fun j hj k => ?_⟩
  · obtain ⟨definition, hdefinition, htarget⟩ := Option.bind_eq_some_iff.1 hjk
    obtain ⟨n, hn, hshape⟩ := Option.bind_eq_some_iff.1 htarget
    refine hlinks definition (List.mem_of_find?_eq_some hdefinition) n (ok_of_toOption hn) k (.inl ?_)
    rw [Shape.eq_of_target? hshape]
    exact List.mem_singleton_self k
  · obtain ⟨definition, hdefinition, rfl⟩ := List.mem_map.1 hj
    rw [SendsOn, SchemaGraph.target?, get?_of_mem hgraph hdefinition, Option.bind_some]
    exact hrelaying definition.id definition.node (lookup_of_mem hnodup (Slots.mem_graph.1 hdefinition)) k

theorem runAll_loops_iff (hr : r.Serves d.root) (hcalls : ∀ c ∈ calls, c.On d.root)
    (hresolved : ∀ answer ∈ (runAll r d calls []).1, Resolved answer) {k : SchemaId}
    (hk : k ∈ (runAll r d calls []).2.graph.definitions.map (·.id)) :
    (∀ j, ReflTransGen (runAll r d calls []).2.graph.SendsOn k j →
      ¬ TransGen (runAll r d calls []).2.graph.SendsOn j j) ↔ ¬ d.Loops k := by
  obtain ⟨-, hclosed, hrelay⟩ := runAll_sendsOn hr hcalls hresolved
  generalize (runAll r d calls []).2.graph = g at hk hclosed hrelay ⊢
  have hway {i j : SchemaId} (hi : i ∈ g.definitions.map (·.id)) (hij : ReflTransGen d.Relay i j) :
      ReflTransGen g.SendsOn i j ∧ j ∈ g.definitions.map (·.id) := by
    induction hij with
    | refl => exact ⟨.refl, hi⟩
    | tail _ hstep ih =>
      have hsends := (hrelay _ ih.2 _).2 hstep
      exact ⟨ih.1.tail hsends, hclosed _ _ hsends⟩
  have hmem {i j : SchemaId} (hi : i ∈ g.definitions.map (·.id)) (hij : ReflTransGen g.SendsOn i j) :
      ReflTransGen d.Relay i j ∧ j ∈ g.definitions.map (·.id) := by
    induction hij with
    | refl => exact ⟨.refl, hi⟩
    | tail _ hstep ih => exact ⟨ih.1.tail ((hrelay _ ih.2 _).1 hstep), hclosed _ _ hstep⟩
  constructor
  · rintro hacyclic ⟨j, hkj, hcycle⟩
    obtain ⟨hkj, hj⟩ := hway hk hkj
    obtain ⟨i, hji, hij⟩ := TransGen.tail'_iff.1 hcycle
    obtain ⟨hji, hi⟩ := hway hj hji
    exact hacyclic j hkj (.tail' hji ((hrelay i hi j).2 hij))
  · rintro hno j hkj hcycle
    obtain ⟨hkj, hj⟩ := hmem hk hkj
    obtain ⟨i, hji, hij⟩ := TransGen.tail'_iff.1 hcycle
    obtain ⟨hji, hi⟩ := hmem hj hji
    exact hno ⟨j, hkj, .tail' hji ((hrelay i hi j).1 hij)⟩

/-- In the graph that calls leave, the chain of a definition ends within as many steps as there are definitions exactly if
the definition comes to no cycle of relays in the document, and just then asking whether a reference to it stands for an
object comes to an end. Where it does, the answer is found with the number of definitions and two as the depth, and no
greater depth changes it. Every schema on a cycle of relays passes on a reference though it is no alias for the resolver. -/
theorem runAll_chains (hr : r.Serves d.root) (hcalls : ∀ c ∈ calls, c.On d.root)
    (hresolved : ∀ answer ∈ (runAll r d calls []).1, Resolved answer) :
    let g := (runAll r d calls []).2.graph
    (∀ definition ∈ g.definitions, (g.Settles definition.id ↔ ¬ d.Loops definition.id) ∧
      (Acc (fun asked shape => g.Asks shape asked) (.reference definition.id) ↔ ¬ d.Loops definition.id) ∧
      (g.Settles definition.id → ∀ depth, g.definitions.length + 2 ≤ depth →
        Lowering.isObjectLike g depth (.reference definition.id) =
          Lowering.isObjectLike g (g.definitions.length + 2) (.reference definition.id))) ∧
      ∀ k, TransGen d.Relay k k → ∃ tree text, d.tree? k = some tree ∧ tree.Relays text ∧
        Reference.aliasTarget? tree = none := by
  intro g
  refine ⟨fun definition hdefinition => ?_, fun k hcycle => ?_⟩
  · have hk : definition.id ∈ g.definitions.map (·.id) := List.mem_map_of_mem hdefinition
    obtain ⟨hnodup, hclosed, -⟩ := runAll_sendsOn hr hcalls hresolved
    have hsettles := settles_iff hnodup (hclosed _ _) hk
    have hloops := runAll_loops_iff hr hcalls hresolved hk
    refine ⟨hsettles.trans hloops, acc_asks_iff.trans ⟨fun hacc => ?_, fun hno => ?_⟩, ?_⟩
    · exact hloops.1 fun j hj => not_cycle_of_acc hacc hj
    · obtain ⟨last, -, hend, -⟩ := hsettles.2 (hloops.2 hno)
      exact acc_of_chainEnd? hend
    · rintro ⟨last, -, hend, -⟩ depth hdepth
      rw [isObjectLike_of_chainEnd? hend hdepth, isObjectLike_of_chainEnd? hend (Nat.le_refl _)]
  · obtain ⟨j, hkj, -⟩ := TransGen.head'_iff.1 hcycle
    obtain ⟨i, -, hik⟩ := TransGen.tail'_iff.1 hcycle
    obtain ⟨tree, htree, text, -, hrelays, -⟩ := hkj
    obtain ⟨tree', htree', halias⟩ := hik.not_alias
    obtain rfl := Option.some.inj (htree.symm.trans htree')
    exact ⟨tree, text, htree, hrelays, halias⟩

/-- A document with a chain over a key that gives no shape and over a branch beside null, to an object that holds the first
definition. -/
def chainedDocument : Document :=
  ⟨⟨"", "", none⟩, .mapping [(.text "components", .mapping [(.text "schemas", .mapping [
    (.text "First", .mapping [(.text "prefixItems", .sequence []), (.text "$ref", .text "#/components/schemas/Second")]),
    (.text "Second", .mapping [(.text "oneOf", .sequence [.mapping [(.text "type", .text "null")],
      .mapping [(.text "$ref", .text "#/components/schemas/Third")]])]),
    (.text "Third", .mapping [(.text "properties", .mapping [
      (.text "first", .mapping [(.text "$ref", .text "#/components/schemas/First")])])])])])]⟩

/-- The chain ends at the object, so no schema of the document is on a cycle of relays. -/
theorem runAll_chains_chainedDocument :
    let r := ((Resolver.new chainedDocument.root).checkAll).2
    let g := (runAll r chainedDocument [.components] []).2.graph
    ((Resolver.new chainedDocument.root).checkAll).1.toOption = some 3 ∧
      g.definitions.map (fun definition => (definition.id.pointer, definition.target?.map SchemaId.pointer)) =
        [("#/components/schemas/First", some "#/components/schemas/Second"),
          ("#/components/schemas/Second", some "#/components/schemas/Third"), ("#/components/schemas/Third", none)] ∧
      ∀ definition ∈ g.definitions, g.Settles definition.id ∧ ¬ chainedDocument.Loops definition.id := by
  intro r g
  have hcalls : ∀ c ∈ [Call.components], c.On chainedDocument.root := by simp [Call.On]
  have h := runAll_chains (Resolver.serves_checkAll chainedDocument.root) hcalls (by decide +kernel)
  have hsettles : ∀ definition ∈ g.definitions, g.Settles definition.id := by decide +kernel
  refine ⟨by decide +kernel, by decide +kernel, fun definition hdefinition => ?_⟩
  have hsettled := hsettles definition hdefinition
  exact ⟨hsettled, (h.1 definition hdefinition).1.1 hsettled⟩

/-- The text of a contract with a schema that refers to itself beside a key that gives no shape. -/
def prefixedText : String :=
  "\x7b\"components\":\x7b\"schemas\":\x7b\"A\":\x7b\"prefixItems\":[],\"$ref\":\"#/components/schemas/A\"\x7d\x7d\x7d\x7d"

/-- The document passes the check of all references and has a canonical form, and its only definition refers to itself. -/
theorem prefixed_refers_self : ∃ d count r, Document.load prefixedText .json = .ok d ∧
    (Resolver.new d.root).checkAll = (.ok count, r) ∧ (∀ answer ∈ (runAll r d [.components] []).1, Resolved answer) ∧
      ∃ definition ∈ (runAll r d [.components] []).2.graph.definitions, definition.target? = some definition.id ∧
        ¬ (runAll r d [.components] []).2.graph.Settles definition.id := by
  have hrun : (Document.load prefixedText .json).toOption.bind (fun d =>
      let run := runAll ((Resolver.new d.root).checkAll).2 d [.components] []
      ((Resolver.new d.root).checkAll).1.toOption.map fun count =>
        (count, run.1.all fun answer => Resolved answer,
          run.2.graph.definitions.map fun definition =>
            decide (definition.target? = some definition.id ∧ ¬ run.2.graph.Settles definition.id))) =
      some (1, true, [true]) := by
    decide +kernel
  obtain ⟨d, hd, hrun⟩ := Option.bind_eq_some_iff.1 hrun
  obtain ⟨count, hcount, hview⟩ := Option.map_eq_some_iff.1 hrun
  obtain ⟨-, hrest⟩ := Prod.mk.inj hview
  obtain ⟨hresolved, hdefinitions⟩ := Prod.mk.inj hrest
  obtain ⟨definition, hlist, htold⟩ := List.map_eq_singleton_iff.1 hdefinitions
  refine ⟨d, count, _, ok_of_toOption hd, Prod.ext (ok_of_toOption hcount) rfl, ?_, definition, ?_, of_decide_eq_true htold⟩
  · exact fun answer hanswer => of_decide_eq_true (List.all_eq_true.1 hresolved answer hanswer)
  · exact hlist ▸ List.mem_singleton_self definition

end Interpretation

end ContractBindings
