import ContractBindings.Proofs.Model.Convention
import ContractBindings.Proofs.Model.Storage
import ContractBindings.Proofs.Operation.Building
import ContractBindings.Proofs.Schema.Nesting

/-!
# The types of a draft are layered

A type that is made while a schema is lowered stores types of schemas inside its own, and definitions that do not lead
back to the owner (`Held`). Names are recorded before what they stand for is lowered, so a type would store itself if a
node of its identity stood inside it. Where nodes are unnested there is none: types inside do not store the type around
them, what is lowered later is not stored by what was lowered before, and the types of the draft are layered
(`Draft.Stacks`). All of this is one property of computations (`Layers`), kept by sequencing; `lower_layers` says that
lowering a schema has it.
-/

namespace ContractBindings

/-! ## The identities inside a schema -/

/-- A node with the identity stands in a shape. -/
def Shape.Contains (s : Shape) (id : SchemaId) : Prop := ∃ m, s.Holds m ∧ m.id = id

/-- A node has the identity, or one that stands in it. -/
def SchemaNode.Contains (n : SchemaNode) (id : SchemaId) : Prop := n.id = id ∨ n.shape.Contains id

theorem Shape.Contains.of_child {s : Shape} {m : SchemaNode} {id : SchemaId} (hm : m ∈ s.children)
    (h : m.Contains id) : s.Contains id := by
  rcases h with h | ⟨k, hk, h⟩
  · exact ⟨m, .child hm, h⟩
  · exact ⟨k, .deeper hm hk, h⟩

open Naming

namespace Lowering

/-! ## What is stored -/

/-- A name that is stored by what is made of the schemas inside: recorded for one of them, or given to a definition that
does not lead back to the owner. -/
def Held (c : Context) (inside : SchemaId → Prop) (s : Draft) (name : String) : Prop :=
  (∃ id, inside id ∧ ((id, name) ∈ c.inlineNames ∨ (id, name) ∈ s.inlineNames)) ∨
    ∃ id, c.names.lookup id = some name ∧ c.closes id = false

/-- The snake forms of the names of all types so far are taken. -/
structure Draft.Registered (c : Context) (s : Draft) : Prop where
  definitions : ∀ p ∈ c.names, snakeCase p.2 ∈ s.registry.taken
  before : ∀ p ∈ c.inlineNames, snakeCase p.2 ∈ s.registry.taken
  recorded : ∀ p ∈ s.inlineNames, snakeCase p.2 ∈ s.registry.taken

/-- The types that are added store what is inside, and are layered. -/
structure Draft.Stacks (c : Context) (inside : SchemaId → Prop) (types : List TypeDef) (s s' : Draft) : Prop
    extends Draft.Adds types s s' where
  stored : ∀ t ∈ types, ∀ name ∈ t.body.stores, Held c inside s' name
  layered : Layered types

variable {c : Context} {inside inside' : SchemaId → Prop} {s s' s'' : Draft} {types types' : List TypeDef}

theorem Held.mono {name : String} (h : Held c inside s name) (hi : ∀ id, inside id → inside' id)
    (hs : s.inlineNames ⊆ s'.inlineNames) : Held c inside' s' name := by
  rcases h with ⟨id, hid, h⟩ | h
  · exact .inl ⟨id, hi id hid, h.imp_right fun h => hs h⟩
  · exact .inr h

/-- The names that are stored are taken. -/
theorem Held.taken {name : String} (h : Held c inside s name) (hs : s.Registered c) :
    snakeCase name ∈ s.registry.taken := by
  rcases h with ⟨id, -, h | h⟩ | ⟨id, h, -⟩
  · exact hs.before (id, name) h
  · exact hs.recorded (id, name) h
  · exact hs.definitions (id, name) (mem_of_lookup h)

theorem Draft.Registered.adds (h : s.Registered c) (ha : Draft.Adds types s s') : s'.Registered c where
  definitions p hp := ha.registry_le (h.definitions p hp)
  before p hp := ha.registry_le (h.before p hp)
  recorded := by
    intro p hp
    rw [ha.inlineNames_eq] at hp
    rcases List.mem_append.1 hp with hp | hp
    · exact ha.registry_le (h.recorded p hp)
    · obtain ⟨t, ht, rfl⟩ := List.mem_map.1 hp
      exact (ha.claimed t ht).2

theorem Draft.Registered.record (h : s.Registered c) (p : SchemaId × String) {r : Registry}
    (hp : snakeCase p.2 ∈ r.taken) (hle : s.registry.Le r) :
    Draft.Registered c { s with registry := r, inlineNames := s.inlineNames ++ [p] } where
  definitions q hq := hle (h.definitions q hq)
  before q hq := hle (h.before q hq)
  recorded := by
    intro q hq
    rcases List.mem_append.1 hq with hq | hq
    · exact hle (h.recorded q hq)
    · rwa [List.mem_singleton.1 hq]

namespace Draft.Stacks

theorem held (h : Draft.Stacks c inside types s s') {name : String} (hn : Held c inside s name) :
    Held c inside s' name :=
  hn.mono (fun _ h => h) h.inlineNames_subset

theorem of_adds (h : Draft.Adds [] s s') : Draft.Stacks c inside [] s s' where
  toAdds := h
  stored := by simp
  layered := .nil

theorem refl (c : Context) (inside : SchemaId → Prop) (s : Draft) : Draft.Stacks c inside [] s s := of_adds (.refl s)

/-- What was stored before is taken, so it is none of the types that are added later. -/
theorem trans (hs : s.Registered c) (h : Draft.Stacks c inside types s s') (h' : Draft.Stacks c inside types' s' s'') :
    Draft.Stacks c inside (types ++ types') s s'' where
  toAdds := h.toAdds.trans h'.toAdds
  stored := by
    intro t ht name hname
    rcases List.mem_append.1 ht with ht | ht
    · exact h'.held (h.stored t ht name hname)
    · exact h'.stored t ht name hname
  layered := by
    refine h.layered.append h'.layered fun t ht t' ht' hname => ?_
    have htaken := (h.stored t ht _ hname).taken (hs.adds h.toAdds)
    exact (h'.claimed t' ht').1 htaken

theorem mono (h : Draft.Stacks c inside types s s') (hi : ∀ id, inside id → inside' id) :
    Draft.Stacks c inside' types s s' :=
  { h with stored := fun t ht name hname => (h.stored t ht name hname).mono hi (List.Subset.refl _) }

/-- A type is put in front of the types inside it: nothing inside has the identity of its schema, so neither it nor they
store it. -/
theorem inline {t : TypeDef} {r : Registry} (hs : s.Registered c) (hclaim : Registry.Between s.registry r t.name)
    (hle : s.registry.Le r) (hi : ∀ id, inside id → inside' id) (hfree : ¬ inside t.source)
    (hbody : ∀ name ∈ t.body.stores, Held c inside s' name)
    (h : Draft.Stacks c inside types
      { s with registry := r, inlineNames := s.inlineNames ++ [(t.source, t.name)] } s') :
    Draft.Stacks c inside' (t :: types) s
      { s' with types := s'.types.take s.types.length ++ t :: s'.types.drop s.types.length } := by
  have hself : ¬ Held c inside s' t.name := by
    rintro (⟨id, hinside, hname | hname⟩ | ⟨id, hname, -⟩)
    · exact hclaim.1 (hs.before (id, t.name) hname)
    · -- the name is recorded for a node inside: it is older, or that of this type, or newer
      rw [h.inlineNames_eq, List.mem_append, List.mem_append] at hname
      rcases hname with (hname | hname) | hname
      · exact hclaim.1 (hs.recorded (id, t.name) hname)
      · obtain ⟨rfl, -⟩ := Prod.mk.inj (List.mem_singleton.1 hname)
        exact hfree hinside
      · obtain ⟨u, hu, heq⟩ := List.mem_map.1 hname
        obtain ⟨-, heq⟩ := Prod.mk.inj heq
        exact (h.claimed u hu).1 (heq ▸ hclaim.2)
    · exact hclaim.1 (hs.definitions (id, t.name) (mem_of_lookup hname))
  constructor
  case toAdds => exact .inline hclaim hle h.toAdds
  case stored =>
    intro u hu name hname
    rcases List.mem_cons.1 hu with rfl | hu
    · exact (hbody name hname).mono hi (List.Subset.refl _)
    · exact (h.stored u hu name hname).mono hi (List.Subset.refl _)
  case layered =>
    exact h.layered.cons (fun hname => hself (hbody _ hname)) fun u hu hname => hself (h.stored u hu _ hname)

end Draft.Stacks

/-! ## Computations that lower in layers -/

/-- A computation that adds layered types to a draft, given names that may be stored: those that its answer stores are
held, too. -/
def Layers (c : Context) (inside : SchemaId → Prop) (given : List String) (stored : α → List String) (x : Lower α) :
    Prop :=
  ∀ s, s.Registered c → (∀ n ∈ given, Held c inside s n) →
    Ends x s (fun a s' => ∃ types, Draft.Stacks c inside types s s' ∧ ∀ n ∈ stored a, Held c inside s' n)
      fun _ _ => True

namespace Layers

variable {given : List String} {stored : α → List String} {storedβ : β → List String} {x : Lower α}

theorem pure {a : α} (h : stored a ⊆ given) : Layers c inside given stored (Pure.pure a) :=
  fun s _ hs => ends_pure.2 ⟨[], .refl c inside s, fun n hn => hs n (h hn)⟩

theorem throw {e : Diagnostic} : Layers c inside given stored (MonadExcept.throw e) :=
  fun _ _ _ => ends_throw.2 trivial

/-- Sequencing, where the answers of the first computation have a property. -/
theorem bind_of {f : α → Lower β} {Q : α → Prop} (hx : Layers c inside given stored x)
    (hq : ∀ s, Ends x s (fun a _ => Q a) fun _ _ => True)
    (hf : ∀ a, Q a → Layers c inside (given ++ stored a) storedβ (f a)) : Layers c inside given storedβ (x >>= f) := by
  intro s hr hs
  refine ends_bind.2 (((hx s hr hs).and (hq s)).mono ?_ fun _ _ _ => trivial)
  rintro a s' ⟨⟨types, hg, ha⟩, hqa⟩
  have hs' : ∀ n ∈ given ++ stored a, Held c inside s' n := by
    intro n hn
    rcases List.mem_append.1 hn with hn | hn
    · exact hg.held (hs n hn)
    · exact ha n hn
  refine (hf a hqa s' (hr.adds hg.toAdds) hs').mono ?_ fun _ _ h => h
  rintro b s'' ⟨types', hg', hb⟩
  exact ⟨types ++ types', hg.trans hr hg', hb⟩

theorem bind {f : α → Lower β} (hx : Layers c inside given stored x)
    (hf : ∀ a, Layers c inside (given ++ stored a) storedβ (f a)) : Layers c inside given storedβ (x >>= f) :=
  bind_of (Q := fun _ => True) hx (fun _ => Ends.trivial) fun a _ => hf a

/-- What is given no names also runs inside more, given any. -/
theorem mono (hx : Layers c inside' [] stored x) (hi : ∀ id, inside' id → inside id) :
    Layers c inside given stored x := by
  intro s hr _
  refine (hx s hr (by simp)).mono ?_ fun _ _ h => h
  rintro a s' ⟨types, hg, ha⟩
  exact ⟨types, hg.mono hi, fun n hn => (ha n hn).mono hi (List.Subset.refl _)⟩

theorem map {f : α → β} (hx : Layers c inside given stored x) (hf : ∀ a, storedβ (f a) ⊆ stored a) :
    Layers c inside given storedβ (f <$> x) := by
  intro s hr hs
  refine ends_map.2 ((hx s hr hs).mono ?_ fun _ _ h => h)
  rintro a s' ⟨types, hg, ha⟩
  exact ⟨types, hg, fun n hn => ha n (hf a hn)⟩

theorem warn (code : DiagnosticCode) (message : String) :
    Layers c inside given (fun _ => []) (Lowering.warn c code message) :=
  fun s _ _ => ends_modify.2 ⟨[], .of_adds { Draft.Adds.refl s with }, by simp⟩

theorem claim (base : String) : Layers c inside given (fun _ => []) (Lowering.claim base) :=
  fun s _ _ => ends_modifyGet.2 ⟨[], .of_adds (.claim s base), by simp⟩

/-- A definition is stored only where its use closes no cycle. -/
theorem useDefinition (target : SchemaId) (nullable : Bool) :
    Layers c inside given (fun kind => (TypeDescriptor.mk kind nullable).stored) (Lowering.useDefinition c target) := by
  unfold Lowering.useDefinition
  cases hl : c.names.lookup target with
  | none => exact throw
  | some name =>
    by_cases hf : c.failed.contains target
    · simp only [hf, ↓reduceIte]
      exact throw
    · simp only [hf]
      intro s _ _
      refine ends_pure.2 ⟨[], .refl c inside s, fun n hn => .inr ?_⟩
      change n ∈ (TypeDescriptor.mk (.named name (c.closes target)) nullable).stored at hn
      cases hcloses : c.closes target with
      | true => simp [hcloses, TypeDescriptor.stored, TypeDescriptor.kind] at hn
      | false =>
        obtain rfl : n = name := by simpa [hcloses, TypeDescriptor.stored, TypeDescriptor.kind] using hn
        exact ⟨target, hl, hcloses⟩

theorem unknownShape (id : SchemaId) (position : Position) :
    Layers c inside given TypeDescriptor.stored (Lowering.unknownShape c id position) := by
  unfold Lowering.unknownShape
  dsimp only
  split
  · exact throw
  · exact bind (warn _ _) fun _ => pure (List.nil_subset _)

theorem contained {inner : TypeDescriptor} (id : SchemaId) :
    Layers c inside given (fun _ => []) (Lowering.contained c inner id) := by
  unfold Lowering.contained
  split
  · exact bind (warn _ _) fun _ => pure (List.nil_subset _)
  · exact pure (List.nil_subset _)

/-- A union stores what its branches store. -/
theorem unionBody {name : String} {branches : List SchemaNode} {discriminator : Option Discriminator}
    {types : List TypeDescriptor} (ht : types.flatMap TypeDescriptor.stored ⊆ given) :
    Layers c inside given TypeBody.stores (Lowering.unionBody c name branches discriminator types) := by
  have hunion {variants : List UnionVariant} {property : Option String} (h : ∀ v ∈ variants, v.type ∈ types) :
      TypeBody.stores (.union variants property) ⊆ types.flatMap TypeDescriptor.stored := by
    intro n hn
    simp only [TypeBody.stores, TypeBody.descriptors, List.flatMap_map, List.mem_flatMap] at hn ⊢
    obtain ⟨v, hv, hn⟩ := hn
    exact ⟨v.type, h v hv, hn⟩
  obtain ⟨x, hx, hbody⟩ := unionBody_as c name branches discriminator types
  rw [hbody]
  cases hx with
  | downgraded _ => exact bind (warn _ _) fun _ => pure (List.nil_subset _)
  | plain _ => exact pure (List.Subset.trans (hunion fun _ => type_mem_of_unionVariants) ht)
  | tagged _ _ _ => exact pure (List.Subset.trans (hunion fun _ => type_mem_of_tagged) ht)
  | dropped _ _ =>
    refine bind (warn _ _) fun _ => pure (List.Subset.trans (hunion fun _ => type_mem_of_unionVariants) ?_)
    exact List.Subset.trans ht (List.subset_append_left _ _)

/-- What is known of a node without looking inside stores a name that is recorded for its identity, or a definition. -/
theorem known? {node : SchemaNode} (position : Position) (hid : inside node.id) :
    Layers c inside given (fun type => type.elim [] TypeDescriptor.stored) (Lowering.known? c node position) := by
  intro s hr hs
  obtain ⟨x, hx, hrun⟩ := known?_as c node position s
  refine .of_run_eq hrun ?_
  cases hx with
  | refused _ _ _ =>
    refine map (f := some) (unknownShape _ _) ?_ s hr hs
    exact fun _ => List.Subset.refl _
  | definition _ =>
    refine bind (useDefinition node.id node.nullable) (fun kind => pure ?_) s hr hs
    exact List.subset_append_right _ _
  | @named name _ hname =>
    refine ends_pure.2 ⟨[], .refl c inside s, fun n hn => .inl ⟨node.id, hid, ?_⟩⟩
    obtain rfl : n = name := by simpa [TypeDescriptor.stored, TypeDescriptor.kind] using hn
    exact hname
  | new _ _ _ => exact ends_pure.2 ⟨[], .refl c inside s, by simp⟩

/-- A node becomes a type: nothing inside has its identity. -/
theorem defineInline {id : SchemaId} {title doc : Option String} {hint : String} {body : String → Lower TypeBody}
    (hi : ∀ id, inside' id → inside id) (hfree : ¬ inside' id) (hid : inside id)
    (hbody : ∀ name, Layers c inside' [] TypeBody.stores (body name)) :
    Layers c inside given (fun kind => (TypeDescriptor.ofKind kind).stored)
      (Lowering.defineInline id title doc hint body) := by
  intro s hr _
  rw [ends_defineInline]
  have hclaim := s.registry.between_claim (inlineBase title hint)
  generalize (s.registry.claim (inlineBase title hint)).1 = name at hclaim
  have hle := s.registry.le_claim (inlineBase title hint)
  generalize (s.registry.claim (inlineBase title hint)).2 = r at hclaim hle
  refine (hbody name _ (hr.record (id, name) hclaim.2 hle) (by simp)).mono ?_ fun _ _ h => h
  rintro b s' ⟨types, hg, hb⟩
  have hinline := Draft.Stacks.inline (t := ⟨name, id, doc, b⟩) hr hclaim hle hi hfree hb hg
  refine ⟨_, hinline, fun n hn => .inl ⟨id, hid, .inr ?_⟩⟩
  obtain rfl : n = name := by simpa [TypeDescriptor.ofKind, TypeDescriptor.stored, TypeDescriptor.kind] using hn
  exact hg.inlineNames_subset (by simp)

end Layers

/-! ## Lowering a schema -/

/-- Each node of a list adds layered types inside what is `inside`, whatever the type is named after that it may become.
-/
def Layers.Nodes (c : Context) (inside : SchemaId → Prop) (nodes : List SchemaNode) : Prop :=
  ∀ n ∈ nodes, ∀ (given : List String) (hint : String),
    Layers c inside given TypeDescriptor.stored (lower c hint .nested n)

section Shapes

variable {c : Context} {inside : SchemaId → Prop} {given : List String} (hint name : String)

theorem lowerOr_layers {absent : Lower TypeDescriptor} (habsent : Layers c inside given TypeDescriptor.stored absent) :
    ∀ {n : Option SchemaNode}, Layers.Nodes c inside n.toList →
      Layers c inside given TypeDescriptor.stored (lowerOr c hint absent n)
  | some node, hn => hn node (by simp) given hint
  | none, _ => habsent

theorem lowerOption_layers : ∀ {n : Option SchemaNode}, Layers.Nodes c inside n.toList →
    Layers c inside given (fun type => type.elim [] TypeDescriptor.stored) (lowerOption c hint n)
  | some node, hn => (hn node (by simp) given hint).map fun _ => List.Subset.refl _
  | none, _ => .pure (List.nil_subset _)

theorem lowerFields_layers (required : List String) : ∀ (given : List String) (r : Registry)
    {fields : List (String × SchemaNode)}, Layers.Nodes c inside (fields.map (·.2)) →
      Layers c inside given (fun p => p.1.flatMap (·.type.stored)) (lowerFields c name required r fields)
  | _, _, [], _ => .pure (List.nil_subset _)
  | given, r, (wire, node) :: rest, hn => by
    obtain ⟨hnode, hrest⟩ := List.forall_mem_cons.1 hn
    rw [lowerFields]
    refine Layers.bind (hnode given _) fun type => ?_
    refine Layers.bind (lowerFields_layers required _ _ hrest) fun p => Layers.pure ?_
    simp

theorem lowerBranches_layers : ∀ (given : List String) (number : Nat) {branches : List SchemaNode},
    Layers.Nodes c inside branches →
      Layers c inside given (fun types => types.flatMap TypeDescriptor.stored) (lowerBranches c name number branches)
  | _, _, [], _ => .pure (List.nil_subset _)
  | given, number, node :: rest, hn => by
    obtain ⟨hnode, hrest⟩ := List.forall_mem_cons.1 hn
    rw [lowerBranches]
    refine Layers.bind (hnode given _) fun type => ?_
    refine Layers.bind (lowerBranches_layers _ _ hrest) fun types => Layers.pure ?_
    simp

theorem lowerParts_layers : ∀ (given : List String) (number : Nat) (r : Registry) {parts : List SchemaNode},
    Layers.Nodes c inside parts →
      Layers c inside given (fun fields => fields.flatMap (·.type.stored)) (lowerParts c name number r parts)
  | _, _, _, [], _ => .pure (List.nil_subset _)
  | given, number, r, node :: rest, hn => by
    obtain ⟨hnode, hrest⟩ := List.forall_mem_cons.1 hn
    rw [lowerParts]
    refine Layers.bind (hnode given _) fun type => ?_
    refine Layers.bind (lowerParts_layers _ _ _ hrest) fun fields => Layers.pure ?_
    simp

theorem describe_layers (id : SchemaId) (position : Position) {shape : Shape}
    (hchildren : Layers.Nodes c inside shape.children) :
    Layers c inside given TypeDescriptor.stored (describe c id hint position shape) := by
  cases shape with
  | primitive kind format => exact Layers.pure (List.nil_subset _)
  | array items =>
    rw [describe]
    refine Layers.bind (lowerOr_layers _ (Layers.unknownShape _ _) hchildren) fun item => ?_
    exact Layers.bind (Layers.contained id) fun item => Layers.pure (List.nil_subset _)
  | object fields required additional =>
    have hadditional : Layers.Nodes c inside additional.toList := fun m hm => hchildren m (List.mem_append_right _ hm)
    rw [describe]
    refine Layers.bind (lowerOr_layers _ (Layers.unknownShape _ _) hadditional) fun value => ?_
    exact Layers.bind (Layers.contained id) fun value => Layers.pure (List.nil_subset _)
  | enumeration values =>
    rw [describe]
    exact Layers.bind (Layers.warn _ _) fun _ => Layers.pure (List.nil_subset _)
  | reference target =>
    rw [describe]
    exact Layers.map (Layers.useDefinition target false) fun kind => List.Subset.refl _
  | union branches discriminator => exact Layers.unknownShape _ _
  | intersection parts => exact Layers.unknownShape _ _
  | unknown => exact Layers.unknownShape _ _

/-- The values of undeclared properties are in a map, and nothing that a map holds is stored. -/
theorem stores_struct (fields : List Field) (r : Registry) (value : Option TypeDescriptor) :
    TypeBody.stores (.struct fields (value.map (additionalField r))) = fields.flatMap (·.type.stored) := by
  cases value with
  | none => simp [TypeBody.stores, TypeBody.descriptors, List.flatMap_map]
  | some value =>
    have hstored : (additionalField r value).type.stored = [] := rfl
    simp [TypeBody.stores, TypeBody.descriptors, List.flatMap_map, hstored]

theorem compose_layers (id : SchemaId) {shape : Shape} (hchildren : Layers.Nodes c inside shape.children) :
    Layers c inside given TypeBody.stores (compose c id name shape) := by
  cases shape with
  | object fields required additional =>
    obtain ⟨hfields, hadditional⟩ := List.forall_mem_append.1 hchildren
    rw [compose]
    refine Layers.bind (lowerFields_layers name required given _ hfields) fun p => ?_
    obtain ⟨fields, r⟩ := p
    refine Layers.bind (lowerOption_layers _ hadditional) fun value => ?_
    cases value with
    | some value =>
      refine Layers.bind (Layers.contained id) fun value => Layers.pure ?_
      rw [← Option.map_some, stores_struct]
      simp
    | none =>
      refine Layers.pure ?_
      rw [← Option.map_none (additionalField r), stores_struct]
      simp
  | enumeration values => exact Layers.pure (List.nil_subset _)
  | union branches discriminator =>
    rw [compose]
    refine Layers.bind (lowerBranches_layers name given 1 hchildren) fun types => ?_
    exact Layers.unionBody (List.subset_append_right _ _)
  | intersection parts =>
    rw [compose]
    refine Layers.bind (lowerParts_layers name given 1 _ hchildren) fun fields => Layers.pure ?_
    simp [TypeBody.stores, TypeBody.descriptors, List.flatMap_map]
  | primitive kind format => exact Layers.pure (List.nil_subset _)
  | array items => exact Layers.pure (List.nil_subset _)
  | reference target => exact Layers.pure (List.nil_subset _)
  | unknown => exact Layers.pure (List.nil_subset _)

end Shapes

/-- Lowering a node adds layered types, if it is unnested; a node that stands for a definition need not be. -/
theorem lower_layers (c : Context) (n : SchemaNode) {inside : SchemaId → Prop}
    (hinside : ∀ i, n.Contains i → inside i) (hn : c.graph.defines n.id = false → n.Unnested) (given : List String)
    (hint : String) (position : Position) :
    Layers c inside given TypeDescriptor.stored (lower c hint position n) := by
  induction n using SchemaNode.inductionOnChildren generalizing inside given hint position with
  | step n ih =>
    obtain ⟨id, title, description, nullable, shape⟩ := n
    rw [lower]
    refine Layers.bind_of (Layers.known? position (hinside id (.inl rfl))) (fun _ => Lowers.known?_none) fun type hnone => ?_
    cases type with
    | some type => exact Layers.pure (by simp)
    | none =>
      obtain ⟨hfree, hshape⟩ := hn (hnone rfl)
      have hchildren : Layers.Nodes c shape.Contains shape.children := fun m hm given hint =>
        ih m hm (fun i h => .of_child hm h) (fun _ => hshape.child hm) given hint .nested
      dsimp only
      split
      · refine Layers.bind (Layers.map (Layers.defineInline ?_ ?_ (hinside id (.inl rfl))
          fun name => compose_layers name id hchildren) fun kind => List.Subset.refl _) fun type => Layers.pure ?_
        · exact fun i h => hinside i (.inr h)
        · rintro ⟨m, hm, heq⟩
          exact hfree m hm heq
        · exact List.subset_append_right _ _
      · refine Layers.bind ((describe_layers hint id position hchildren).mono ?_) fun type => Layers.pure ?_
        · exact fun i h => hinside i (.inr h)
        · exact List.subset_append_right _ _

theorem Layers.children (c : Context) {shape : Shape} (h : shape.Unnested) :
    Layers.Nodes c shape.Contains shape.children :=
  fun m hm given hint => lower_layers c m (fun _ h => .of_child hm h) (fun _ => h.child hm) given hint .nested

/-! ## Lowering a definition -/

/-- The draft of a definition: the types inside it are layered, and the type in front of them stores what stands inside.
-/
def Draft.Heads (c : Context) (node : SchemaNode) (r : Registry) (d : Draft) : Prop :=
  ∃ (t : TypeDef) (types : List TypeDef), d.types = t :: types ∧
    Draft.Stacks c node.shape.Contains types (Draft.start r) { d with types := types } ∧
      ∀ n ∈ t.body.stores, Held c node.shape.Contains d n

theorem lowerDefinition_layers (c : Context) (id : SchemaId) (name : String) {node : SchemaNode}
    (hnode : node.shape.Unnested) {r : Registry} (hr : (Draft.start r).Registered c) :
    Ends (lowerDefinition c id name node) (Draft.start r) (fun _ d => d.Heads c node r) fun _ _ => True := by
  have hbody (body : TypeBody) (d : Draft)
      (h : ∃ types, Draft.Stacks c node.shape.Contains types (Draft.start r) d ∧
        ∀ n ∈ body.stores, Held c node.shape.Contains d n) :
      Ends (insertType 0 ⟨name, id, node.description, body⟩) d (fun _ d => d.Heads c node r) fun _ _ => True := by
    obtain ⟨types, hg, hn⟩ := h
    obtain rfl : d.types = types := by simpa [Draft.start] using hg.types_eq
    exact ends_modify.2 ⟨⟨name, id, node.description, body⟩, d.types, by simp, hg, hn⟩
  unfold lowerDefinition
  split
  · have hlayers : Layers c node.shape.Contains [] TypeBody.stores (compose c id name node.shape) :=
      compose_layers name id (Layers.children c hnode)
    refine ends_bind.2 ((hlayers _ hr (by simp)).mono ?_ fun _ _ h => h)
    exact fun body d h => hbody body d h
  · have hlayers : Layers c node.shape.Contains [] TypeDescriptor.stored (describe c id name .nested node.shape) :=
      describe_layers name id .nested (Layers.children c hnode)
    refine ends_bind.2 ((hlayers _ hr (by simp)).mono ?_ fun _ _ h => h)
    rintro type d ⟨types, hg, hn⟩
    refine ends_bind.2 (ends_pure.2 (hbody _ d ⟨types, hg, fun n hm => hn n ?_⟩))
    simpa [TypeBody.stores, TypeBody.descriptors, TypeDescriptor.stored_orNull] using hm

/-! ## Lowering an operation -/

theorem lowerParams_layers (c : Context) (base : String) : ∀ (r : Registry) (params : List Parameter),
    (∀ p ∈ params, c.graph.defines p.schema.id = false → p.schema.Unnested) →
      Layers c (fun _ => True) [] (fun _ => []) (lowerParams c base r params)
  | _, [], _ => Layers.pure (List.nil_subset _)
  | r, p :: rest, hn => by
    rw [lowerParams]
    have hschema := lower_layers c p.schema (fun _ _ => trivial) (hn p List.mem_cons_self)
    refine Layers.bind (hschema _ _ .payload) fun type => ?_
    refine Layers.bind ((lowerParams_layers c base _ rest fun q hq => hn q (List.mem_cons_of_mem _ hq)).mono
      fun _ h => h) fun p => Layers.pure (List.nil_subset _)

theorem lowerBody_layers (c : Context) (base : String) (r : Registry) (body : Option RequestBody)
    (hn : ∀ b ∈ body, c.graph.defines b.schema.id = false → b.schema.Unnested) :
    Layers c (fun _ => True) [] (fun _ => []) (lowerBody c base r body) := by
  cases body with
  | none => exact Layers.pure (List.nil_subset _)
  | some b =>
    refine Layers.bind (lower_layers c b.schema (fun _ _ => trivial) (hn b rfl) _ _ .payload) fun type => ?_
    exact Layers.pure (List.nil_subset _)

theorem responseType_layers (c : Context) (base status : String) {response : Response}
    (hn : ∀ n ∈ response.schema, c.graph.defines n.id = false → n.Unnested) :
    Layers c (fun _ => True) [] (fun _ => []) (responseType c base status response) := by
  unfold responseType
  split
  · next node hnode =>
    exact Layers.map (lower_layers c node (fun _ _ => trivial) (hn node hnode) _ _ .payload) fun _ => List.nil_subset _
  · exact Layers.pure (List.nil_subset _)
  · exact Layers.pure (List.nil_subset _)

theorem lowerResponses_layers (c : Context) (base : String) : ∀ responses : List (String × Response),
    (∀ p ∈ responses, ∀ n ∈ p.2.schema, c.graph.defines n.id = false → n.Unnested) →
      Layers c (fun _ => True) [] (fun _ => []) (lowerResponses c base responses)
  | [], _ => Layers.pure (List.nil_subset _)
  | (status, response) :: rest, hn => by
    have hrest := lowerResponses_layers c base rest fun q hq => hn q (List.mem_cons_of_mem _ hq)
    rw [lowerResponses_cons]
    refine Layers.bind (responseType_layers c base status (hn _ List.mem_cons_self)) fun type => ?_
    exact Layers.bind (hrest.mono fun _ h => h) fun others => Layers.pure (List.nil_subset _)

/-- An operation is lowered to layered types, where its schemas are unnested or stand for definitions. -/
theorem lowerOperation_layers (c : Context) (o : Operation)
    (hn : ∀ n ∈ o.schemas, c.graph.defines n.id = false → n.Unnested) :
    Layers c (fun _ => True) [] (fun _ => []) (lowerOperation c o) := by
  have hparams : ∀ p ∈ o.parameters, p.schema ∈ o.schemas := by
    intro p hp
    exact List.mem_append_left _ (List.mem_append_left _ (List.mem_map_of_mem hp))
  have hbody : ∀ b ∈ o.requestBody, b.schema ∈ o.schemas := by
    intro b hb
    exact List.mem_append_left _ (List.mem_append_right _ (List.mem_map_of_mem (by simpa using hb)))
  have hresponses : ∀ p ∈ o.responses, ∀ n ∈ p.2.schema, n ∈ o.schemas := by
    intro p hp n hn
    exact List.mem_append_right _ (List.mem_filterMap.2 ⟨p, hp, hn⟩)
  unfold lowerOperation
  refine Layers.bind (Layers.claim _) fun request => Layers.bind (Layers.claim _) fun response => ?_
  refine Layers.bind (Layers.claim _) fun service => ?_
  refine Layers.bind ((lowerParams_layers c _ _ _ fun p hp => hn _ (hparams p hp)).mono fun _ h => h) fun p => ?_
  refine Layers.bind ((lowerBody_layers c _ _ _ fun b hb => hn _ (hbody b hb)).mono fun _ h => h) fun body => ?_
  refine Layers.bind ((lowerResponses_layers c _ _ fun p hp n hm => hn n (hresponses p hp n hm)).mono fun _ h => h)
    fun responses => Layers.pure (List.nil_subset _)

end Lowering

end ContractBindings
