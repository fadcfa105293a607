import ContractBindings.Proofs.Lookup
import ContractBindings.Schema.Graph

/-!
# Nodes inside a schema

The children of a shape are the schemas it is made of, and `Shape.Holds` says that a node stands in a shape at any
depth; a reference holds nothing. What a shape holds is smaller than it (`Shape.Holds.sizeOf_lt`), which is the measure
of inductions over nodes (`SchemaNode.inductionOnChildren`). A property holds everywhere in a shape if it holds of the
shape and everywhere in its children (`Shape.everywhere_of_children`). The references of a shape are those of the nodes it holds
(`mem_references_iff`), and the edges of a definition are the references of its node (`SchemaGraph.mem_edges_iff`).
-/

namespace ContractBindings

/-- The schemas that a shape is made of. -/
def Shape.children : Shape → List SchemaNode
  | .array items => items.toList
  | .object fields _ additional => fields.map (·.2) ++ additional.toList
  | .union branches _ => branches
  | .intersection parts => parts
  | _ => []

/-- A node stands in a shape, at any depth. -/
inductive Shape.Holds : Shape → SchemaNode → Prop
  | child {s : Shape} {m : SchemaNode} : m ∈ s.children → Holds s m
  | deeper {s : Shape} {m k : SchemaNode} : m ∈ s.children → Holds m.shape k → Holds s k

theorem sizeOf_lt_of_mem_children {s : Shape} {m : SchemaNode} (h : m ∈ s.children) : sizeOf m < sizeOf s := by
  cases s with
  | array items =>
    cases items with
    | none => cases h
    | some n =>
      obtain rfl : m = n := by simpa [Shape.children] using h
      simp
      omega
  | object fields required additional =>
    rcases List.mem_append.mp h with h | h
    · obtain ⟨⟨name, n⟩, hf, rfl⟩ := List.mem_map.mp h
      have hlt := List.sizeOf_lt_of_mem hf
      simp at hlt ⊢
      omega
    · cases additional with
      | none => cases h
      | some n =>
        obtain rfl : m = n := by simpa using h
        simp
        omega
  | union branches discriminator =>
    have hlt : sizeOf m < sizeOf branches := List.sizeOf_lt_of_mem h
    simp
    omega
  | intersection parts =>
    have hlt : sizeOf m < sizeOf parts := List.sizeOf_lt_of_mem h
    simp
    omega
  | _ => cases h

theorem SchemaNode.sizeOf_shape_lt (m : SchemaNode) : sizeOf m.shape < sizeOf m := by
  cases m
  simp [SchemaNode.shape]

/-- What holds of a node whenever it holds of the children of its shape holds of every node. -/
theorem SchemaNode.inductionOnChildren {P : SchemaNode → Prop}
    (step : ∀ n : SchemaNode, (∀ m ∈ n.shape.children, P m) → P n) (n : SchemaNode) : P n :=
  step n fun m hm =>
    have : sizeOf m < sizeOf n := Nat.lt_trans (sizeOf_lt_of_mem_children hm) n.sizeOf_shape_lt
    SchemaNode.inductionOnChildren step m
termination_by sizeOf n

namespace Shape.Holds

variable {s : Shape} {m k : SchemaNode}

/-- What stands in a shape is smaller than it. -/
theorem sizeOf_lt (h : Holds s m) : sizeOf m < sizeOf s := by
  induction h with
  | child h => exact sizeOf_lt_of_mem_children h
  | @deeper s m k hm _ ih => exact Nat.lt_trans ih (Nat.lt_trans m.sizeOf_shape_lt (sizeOf_lt_of_mem_children hm))

theorem trans (h : Holds s m) (hk : Holds m.shape k) : Holds s k := by
  induction h with
  | child h => exact deeper h hk
  | deeper h _ ih => exact deeper h (ih hk)

/-- A node that stands in a shape is a child of it or stands in one. -/
theorem cases_children (h : Holds s k) : ∃ m ∈ s.children, k = m ∨ Holds m.shape k := by
  cases h with
  | child h => exact ⟨k, h, .inl rfl⟩
  | deeper h hk => exact ⟨_, h, .inr hk⟩

end Shape.Holds

/-! ## Properties at every depth -/

/-- A property of a shape and of the shapes of all nodes in it. -/
def Shape.Everywhere (P : Shape → Prop) (s : Shape) : Prop := P s ∧ ∀ m, s.Holds m → P m.shape

theorem Shape.Everywhere.child {P : Shape → Prop} {s : Shape} (h : s.Everywhere P) {m : SchemaNode} (hm : m ∈ s.children) :
    m.shape.Everywhere P := ⟨h.2 m (.child hm), fun k hk => h.2 k (.deeper hm hk)⟩

theorem Shape.everywhere_of_children {P : Shape → Prop} {s : Shape} (hs : P s)
    (h : ∀ m ∈ s.children, m.shape.Everywhere P) : s.Everywhere P := by
  refine ⟨hs, fun k hk => ?_⟩
  obtain ⟨m, hm, rfl | hk⟩ := hk.cases_children
  · exact (h k hm).1
  · exact (h m hm).2 k hk

theorem Shape.everywhere_of_leaf {P : Shape → Prop} {s : Shape} (hs : P s) (h : s.children = []) : s.Everywhere P :=
  everywhere_of_children hs (by simp [h])

/-! ## References -/

theorem Shape.mem_referencesOfList {target : SchemaId} :
    ∀ {nodes : List SchemaNode}, target ∈ Shape.referencesOfList nodes ↔ ∃ m ∈ nodes, target ∈ m.references
  | [] => by simp [Shape.referencesOfList]
  | n :: nodes => by
    have ih := @mem_referencesOfList target nodes
    simp [Shape.referencesOfList, ih]

theorem Shape.mem_referencesOfFields {target : SchemaId} : ∀ {fields : List (String × SchemaNode)},
    target ∈ Shape.referencesOfFields fields ↔ ∃ m ∈ fields.map (·.2), target ∈ m.references
  | [] => by simp [Shape.referencesOfFields]
  | (name, n) :: fields => by
    have ih := @mem_referencesOfFields target fields
    simp [Shape.referencesOfFields, ih]

theorem Shape.mem_referencesOfOption {target : SchemaId} {node : Option SchemaNode} :
    target ∈ Shape.referencesOfOption node ↔ ∃ m ∈ node.toList, target ∈ m.references := by
  cases node <;> simp [Shape.referencesOfOption]

theorem SchemaNode.references_eq (n : SchemaNode) : n.references = n.shape.references := by
  cases n
  rfl

/-- The references of a shape: its own target, and the references of its children. -/
theorem Shape.mem_references {target : SchemaId} (s : Shape) :
    target ∈ s.references ↔ s = .reference target ∨ ∃ m ∈ s.children, target ∈ m.references := by
  cases s with
  | array items => simp [Shape.references, Shape.children, Shape.mem_referencesOfOption]
  | object fields required additional =>
    simp only [Shape.references, Shape.children, List.mem_append, Shape.mem_referencesOfFields,
      Shape.mem_referencesOfOption, reduceCtorEq, false_or, or_and_right, exists_or]
  | union branches discriminator => simp [Shape.references, Shape.children, Shape.mem_referencesOfList]
  | intersection parts => simp [Shape.references, Shape.children, Shape.mem_referencesOfList]
  | reference other => simp [Shape.references, Shape.children, eq_comm]
  | _ => simp [Shape.references, Shape.children]

/-- The references of a shape are its own and those of the nodes it holds. -/
theorem mem_references_iff {target : SchemaId} {s : Shape} :
    target ∈ s.references ↔ s = .reference target ∨ ∃ m, s.Holds m ∧ m.shape = .reference target := by
  have key : ∀ n : SchemaNode, target ∈ n.shape.references ↔
      n.shape = .reference target ∨ ∃ m, n.shape.Holds m ∧ m.shape = .reference target := by
    refine SchemaNode.inductionOnChildren fun n ih => ?_
    rw [Shape.mem_references]
    constructor
    · rintro (h | ⟨m, hm, ht⟩)
      · exact .inl h
      · rw [SchemaNode.references_eq, ih m hm] at ht
        rcases ht with ht | ⟨k, hk, ht⟩
        · exact .inr ⟨m, .child hm, ht⟩
        · exact .inr ⟨k, .deeper hm hk, ht⟩
    · rintro (h | ⟨k, hk, ht⟩)
      · exact .inl h
      · obtain ⟨m, hm, rfl | hk⟩ := hk.cases_children
        · exact .inr ⟨k, hm, by rw [SchemaNode.references_eq, ih k hm]; exact .inl ht⟩
        · exact .inr ⟨m, hm, by rw [SchemaNode.references_eq, ih m hm]; exact .inr ⟨k, hk, ht⟩⟩
  exact key (.mk default none none false s)

/-! ## Edges of definitions -/

theorem mem_insertName {x name : String} : ∀ {names : List String}, x ∈ insertName name names ↔ x = name ∨ x ∈ names
  | [] => by simp [insertName]
  | other :: rest => by
    have ih := @mem_insertName x name rest
    rw [insertName]
    split
    · next h =>
      obtain rfl : name = other := by simpa using h
      simp
    · split
      · simp
      · simp [ih, or_left_comm]

theorem mem_sortedNames {x : String} {names : List String} : x ∈ sortedNames names ↔ x ∈ names := by
  have key : ∀ (names sorted : List String),
      x ∈ names.foldl (fun sorted name => insertName name sorted) sorted ↔ x ∈ sorted ∨ x ∈ names := by
    intro names
    induction names with
    | nil => simp
    | cons name rest ih =>
      intro sorted
      rw [List.foldl_cons, ih, mem_insertName, List.mem_cons, or_comm (a := x = name), or_assoc]
  rw [sortedNames, key]
  simp

theorem mem_sortedIds {x : SchemaId} {ids : List SchemaId} :
    x ∈ (sortedNames (ids.map SchemaId.pointer)).map SchemaId.mk ↔ x ∈ ids := by
  constructor
  · intro hx
    obtain ⟨pointer, hp, rfl⟩ := List.mem_map.1 hx
    obtain ⟨id, hid, rfl⟩ := List.mem_map.1 (mem_sortedNames.1 hp)
    exact hid
  · exact fun hx => List.mem_map.2 ⟨x.pointer, mem_sortedNames.2 (List.mem_map_of_mem hx), rfl⟩

/-- The edges of a definition are the references of its node. -/
theorem SchemaGraph.mem_edges_iff {g : SchemaGraph} (hids : (g.definitions.map (·.id)).Nodup) {d : Definition}
    (hd : d ∈ g.definitions) {node : SchemaNode} (hnode : d.node = .ok node) {x : SchemaId} :
    x ∈ Edges.of g.edges d.id ↔ x ∈ node.references := by
  have hlookup : g.edges.lookup d.id = some ((sortedNames (node.references.map SchemaId.pointer)).map SchemaId.mk) := by
    refine lookup_of_mem ?_ (List.mem_map.2 ⟨d, hd, by simp [hnode, Except.toOption]⟩)
    rwa [SchemaGraph.edges, List.map_map]
  rw [Edges.of, hlookup, Option.getD_some, mem_sortedIds]

end ContractBindings
