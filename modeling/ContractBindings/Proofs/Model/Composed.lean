import ContractBindings.Proofs.Model.Assembly
import ContractBindings.Proofs.Model.Traversal

/-!
# What the types of a model are composed of

A type is made of a definition, or of a node inside a definition or an operation. Where it is not an alias, its body is
what the shape of that node is composed to, under the name of the type (`ofGraph_composed`). So what holds of every body
that is composed of a shape in the graph and the operations holds of all types of a model, and nothing needs to be known
of how lowering comes to the shapes (`ofGraph_bodies`).
-/

namespace ContractBindings

open Naming

/-! ## Shapes with the identities where they stand -/

/-- At an identity in a node stands a shape: it is the node's, or that of a node inside. -/
def SchemaNode.Bears (n : SchemaNode) (id : SchemaId) (shape : Shape) : Prop :=
  n.id = id ∧ n.shape = shape ∨ ∃ m, n.shape.Holds m ∧ m.id = id ∧ m.shape = shape

theorem SchemaNode.Bears.of_child {n m : SchemaNode} {id : SchemaId} {shape : Shape} (hm : m ∈ n.shape.children)
    (h : m.Bears id shape) : n.Bears id shape := by
  rcases h with ⟨hid, hshape⟩ | ⟨k, hk, h⟩
  · exact .inr ⟨m, .child hm, hid, hshape⟩
  · exact .inr ⟨k, .deeper hm hk, h⟩

/-- What holds everywhere in the shape of a node holds of the shapes that the node bears. -/
theorem SchemaNode.Bears.of_everywhere {n : SchemaNode} {id : SchemaId} {shape : Shape} {P : Shape → Prop}
    (h : n.Bears id shape) (hn : n.shape.Everywhere P) : P shape := by
  rcases h with ⟨-, rfl⟩ | ⟨m, hm, -, rfl⟩
  · exact hn.1
  · exact hn.2 m hm

/-- At an identity stands a shape in a definition of a graph or in a schema of an operation. -/
inductive SchemaGraph.Bears (g : SchemaGraph) (operations : List Operation) (id : SchemaId) (shape : Shape) : Prop
  | definition {d : Definition} {node : SchemaNode} : d ∈ g.definitions → d.node = .ok node → d.id = id →
      node.shape = shape → Bears g operations id shape
  | inside {d : Definition} {node m : SchemaNode} : d ∈ g.definitions → d.node = .ok node → m ∈ node.shape.children →
      m.Bears id shape → Bears g operations id shape
  | operation {o : Operation} {n : SchemaNode} : o ∈ operations → n ∈ o.schemas → n.Bears id shape →
      Bears g operations id shape

/-- What holds everywhere in the definitions and operations holds of the shapes that stand in them. -/
theorem SchemaGraph.Bears.of_everywhere {g : SchemaGraph} {operations : List Operation} {id : SchemaId} {shape : Shape}
    {P : Shape → Prop} (h : g.Bears operations id shape)
    (hg : ∀ d ∈ g.definitions, ∀ node, d.node = .ok node → node.shape.Everywhere P)
    (ho : ∀ o ∈ operations, ∀ n ∈ o.schemas, n.shape.Everywhere P) : P shape := by
  cases h with
  | definition hd hnode _ hshape => exact hshape ▸ (hg _ hd _ hnode).1
  | inside hd hnode hm hbears => exact hbears.of_everywhere ((hg _ hd _ hnode).child hm)
  | operation hmem hn hbears => exact hbears.of_everywhere (ho _ hmem _ hn)

namespace Lowering

variable {c : Context} {P : TypeDef → Prop} {x : Lower α}

/-! ## Types with a property -/

/-- The types of a draft have a property. -/
def Draft.Holds (P : TypeDef → Prop) (s : Draft) : Prop := ∀ t ∈ s.types, P t

/-- A computation that adds types with a property only. -/
abbrev AddsOnly (P : TypeDef → Prop) (x : Lower α) : Prop := Keeps (Draft.Holds P) x fun _ => True

/-- What a shape at an identity is composed to makes a type with a property, under any name. -/
def Composes (c : Context) (P : TypeDef → Prop) (id : SchemaId) (shape : Shape) : Prop :=
  isComposite shape = true → ∀ name s,
    Ends (compose c id name shape) s (fun body _ => ∀ doc, P ⟨name, id, doc, body⟩) fun _ _ => True

namespace AddsOnly

theorem map {f : α → β} (hx : AddsOnly P x) : AddsOnly P (f <$> x) := Keeps.map hx fun _ _ => trivial

theorem warn (code : DiagnosticCode) (message : String) : AddsOnly P (Lowering.warn c code message) :=
  .modify fun _ hs => hs

theorem claim (base : String) : AddsOnly P (Lowering.claim base) := fun _ hs => ends_modifyGet.2 ⟨hs, trivial⟩

theorem insertType (place : Nat) {type : TypeDef} (h : P type) : AddsOnly P (Lowering.insertType place type) := by
  refine .modify fun s hs t ht => ?_
  rcases List.mem_append.1 ht with ht | ht
  · exact hs t (List.mem_of_mem_take ht)
  · rcases List.mem_cons.1 ht with rfl | ht
    · exact h
    · exact hs t (List.mem_of_mem_drop ht)

theorem of_traverses {position : Position} {nodes : List SchemaNode} (h : Traverses c position nodes x)
    (hnodes : ∀ m ∈ nodes, ∀ hint, AddsOnly P (lower c hint position m)) : AddsOnly P x := by
  induction h with
  | pure a => exact .pure trivial
  | throw e => exact .throw e
  | warn code message => exact warn code message
  | node hint n => exact hnodes n List.mem_cons_self hint
  | bind _ _ ihx ihf =>
    obtain ⟨hfirst, hsecond⟩ := List.forall_mem_append.1 hnodes
    exact (ihx hfirst).after fun a => ihf a hsecond

theorem known? (node : SchemaNode) (position : Position) : AddsOnly P (Lowering.known? c node position) := by
  have hquiet {β : Type} {y : Lower β} (h : Traverses c .nested [] y) : AddsOnly P y :=
    of_traverses h fun _ hm => by cases hm
  intro s hs
  obtain ⟨x, hx, hrun⟩ := known?_as c node position s
  refine .of_run_eq hrun ?_
  cases hx with
  | refused _ _ _ => exact (hquiet (.unknownShape _ _)).map s hs
  | definition _ => exact ((hquiet (.useDefinition _)).after fun _ => .pure trivial) s hs
  | named _ _ => exact ends_pure.2 ⟨hs, trivial⟩
  | new _ _ _ => exact ends_pure.2 ⟨hs, trivial⟩

/-- A body that is composed goes into a type of its own. -/
theorem defineInline {id : SchemaId} {title doc : Option String} {hint : String} {body : String → Lower TypeBody}
    (hkeeps : ∀ name, AddsOnly P (body name))
    (hbody : ∀ name s, Ends (body name) s (fun b _ => ∀ doc, P ⟨name, id, doc, b⟩) fun _ _ => True) :
    AddsOnly P (Lowering.defineInline id title doc hint body) := by
  refine (claim _).after fun name s hs => ?_
  simp only [ends_bind, ends_modify, ends_get]
  have hboth := (hkeeps name { s with inlineNames := s.inlineNames ++ [(id, name)] } hs).and (hbody name _)
  refine hboth.mono (fun b s' h => ?_) fun _ _ h => h.1
  exact ends_bind.1 ((insertType _ (h.2 doc)).after (fun _ => .pure trivial) s' h.1.1)

end AddsOnly

/-- Lowering a node adds types that the shapes in it are composed to. -/
theorem lower_addsOnly (n : SchemaNode) (hcompose : ∀ id shape, n.Bears id shape → Composes c P id shape) :
    ∀ hint position, AddsOnly P (lower c hint position n) := by
  induction n using SchemaNode.inductionOnChildren with
  | step n ih =>
    have hinside {α : Type} {x : Lower α} (h : Traverses c .nested n.shape.children x) : AddsOnly P x :=
      .of_traverses h fun m hm hint => ih m hm (fun id shape hbears => hcompose id shape (hbears.of_child hm)) hint .nested
    obtain ⟨id, title, description, nullable, shape⟩ := n
    intro hint position
    rw [lower]
    refine (AddsOnly.known? _ position).after fun type => ?_
    cases type with
    | some type => exact .pure trivial
    | none =>
      dsimp only
      split
      · next hcomposite =>
        refine (AddsOnly.map (AddsOnly.defineInline (fun name => ?_) fun name s => ?_)).after fun _ => .pure trivial
        · exact hinside (compose_traverses c id name hcomposite)
        · exact hcompose id shape (.inl ⟨rfl, rfl⟩) hcomposite name s
      · next hplain =>
        exact (hinside (describe_traverses c id hint position (Bool.eq_false_iff.2 hplain))).after fun _ => .pure trivial

theorem Traverses.addsOnly {position : Position} {nodes : List SchemaNode} (h : Traverses c position nodes x)
    (hcompose : ∀ n ∈ nodes, ∀ id shape, n.Bears id shape → Composes c P id shape) : AddsOnly P x :=
  .of_traverses h fun m hm hint => lower_addsOnly m (hcompose m hm) hint position

theorem lowerDefinition_addsOnly (halias : ∀ name id doc type, P ⟨name, id, doc, .alias type⟩) (id : SchemaId)
    (name : String) (node : SchemaNode) (hself : Composes c P id node.shape)
    (hinside : ∀ m ∈ node.shape.children, ∀ id shape, m.Bears id shape → Composes c P id shape) :
    AddsOnly P (lowerDefinition c id name node) := by
  unfold lowerDefinition
  split
  · next hcomposite =>
    have hkeeps := (compose_traverses c id name hcomposite).addsOnly hinside
    intro s hs
    have hboth := (hkeeps s hs).and (hself hcomposite name s)
    refine ends_bind.2 (hboth.mono (fun b s' h => ?_) fun _ _ h => h.1)
    exact AddsOnly.insertType 0 (h.2 node.description) s' h.1.1
  · next hplain =>
    have hkeeps := (describe_traverses c id name .nested (Bool.eq_false_iff.2 hplain)).addsOnly hinside
    have hinsert (type : TypeDescriptor) : AddsOnly P
        (insertType 0 ⟨name, id, node.description, .alias (type.orNull node.nullable)⟩) :=
      .insertType 0 (halias _ _ _ _)
    exact hkeeps.after hinsert

theorem lowerOperation_addsOnly (o : Operation)
    (hcompose : ∀ n ∈ o.schemas, ∀ id shape, n.Bears id shape → Composes c P id shape) :
    AddsOnly P (lowerOperation c o) := by
  obtain ⟨rest, hrest, heq⟩ := lowerOperation_traverses c o
  rw [heq]
  refine (AddsOnly.claim _).after fun request => (AddsOnly.claim _).after fun response => ?_
  exact (AddsOnly.claim _).after fun service => (hrest request response service).addsOnly hcompose

/-! ## The types of a model -/

variable {target : Target}

/-- What holds of all types that the shapes in a graph and operations are composed to, and of aliases, holds of the types
of a model. -/
theorem ofGraph_addsOnly (g : SchemaGraph) (operations : List Operation) (config : Config)
    (hcompose : ∀ c : Context, c.graph = g → c.target = target → c.config = config → ∀ id shape,
      g.Bears operations id shape → Composes c P id shape)
    (halias : ∀ name id doc type, P ⟨name, id, doc, .alias type⟩) :
    ∀ t ∈ (Model.ofGraph g operations target config).types, P t := by
  have hstart (r : Registry) : (Draft.start r).Holds P := fun t ht => by cases ht
  have hkept : ∀ t ∈ (assembled g target config).model.types, P t := by
    intro t ht
    rw [assembled_types] at ht
    obtain ⟨p, hp, ht⟩ := List.mem_flatMap.1 ht
    obtain ⟨-, d, hd, failed, r, node, name, -, -, -, hl⟩ := kept_traced hp
    have hall := hcompose ((context g target config).about failed d.id) rfl rfl rfl
    have hlower := lowerDefinition_addsOnly halias d.id name node (hall _ _ (.definition hd hl.node_eq rfl rfl))
      fun m hm id shape hbears => hall _ _ (.inside hd hl.node_eq hm hbears)
    exact ((hlower (Draft.start r) (hstart r)).answer hl.run_eq).1 t ht
  rw [ofGraph_eq]
  refine lowerOperations_run (I := fun before a => before ⊆ operations → ∀ t ∈ a.model.types, P t) ?_ operations []
    (assembled g target config) (fun _ => hkept) (List.Subset.refl _)
  intro before o a a' h hstep hbefore
  have htypes := h (List.Subset.trans (List.subset_append_left _ _) hbefore)
  have ho : o ∈ operations := hbefore (List.mem_append_right _ List.mem_cons_self)
  cases hstep with
  | @added operation draft hrun =>
    have hall := hcompose ((operationContext g target config).during a.inlineNames o.id) rfl rfl rfl
    have hdraft := (lowerOperation_addsOnly o (fun n hn id shape hbears => hall _ _ (.operation ho hn hbears)) _
      (hstart a.registry)).answer hrun
    exact List.forall_mem_append.2 ⟨htypes, hdraft.1⟩
  | failed => exact htypes

/-- A type has for its body what a shape is composed to, under its name. -/
def Composed (c : Context) (t : TypeDef) (shape : Shape) : Prop :=
  isComposite shape = true ∧ ∃ s s', (compose c t.source t.name shape).run.run s = (.ok t.body, s')

/-- A type of a model is an alias, or is composed of the shape that stands in the graph or an operation at its source. -/
theorem ofGraph_composed (g : SchemaGraph) (operations : List Operation) (target : Target) (config : Config) :
    ∀ t ∈ (Model.ofGraph g operations target config).types, (∃ type, t.body = .alias type) ∨
      ∃ (c : Context) (shape : Shape), c.graph = g ∧ c.target = target ∧ c.config = config ∧
        g.Bears operations t.source shape ∧ Composed c t shape := by
  refine ofGraph_addsOnly g operations config (fun c hg ht hconfig id shape hbears hcomposite name s => ?_) ?_
  · unfold Ends
    split
    · next body s' hrun =>
      intro doc
      exact .inr ⟨c, shape, hg, ht, hconfig, hbears, hcomposite, s, s', hrun⟩
    · exact trivial
  · exact fun name id doc type => .inl ⟨type, rfl⟩

/-- What holds of every body that is composed for a target, and of an alias, holds of the types of a model. -/
theorem ofGraph_bodies {P : TypeBody → Prop} (g : SchemaGraph) (operations : List Operation) (config : Config)
    (hcompose : ∀ c : Context, c.target = target → ∀ id name shape s, isComposite shape = true →
      Ends (compose c id name shape) s (fun b _ => P b) fun _ _ => True)
    (halias : ∀ type, P (.alias type)) : ∀ t ∈ (Model.ofGraph g operations target config).types, P t.body := by
  intro t ht
  rcases ofGraph_composed g operations target config t ht with ⟨type, htype⟩ | ⟨c, shape, -, rfl, -, -, hcomposite, s, s', hrun⟩
  · rw [htype]
    exact halias type
  · exact (hcompose c rfl _ _ _ s hcomposite).answer hrun

/-- What holds of each operation of a list as it is lowered holds of the operations of a model. -/
theorem ofGraph_operations {Q : OperationDef → Prop} (g : SchemaGraph) (operations : List Operation) (config : Config)
    (hoperation : ∀ c : Context, c.target = target → ∀ o ∈ operations, ∀ s,
      Ends (lowerOperation c o) s (fun operation _ => Q operation) fun _ _ => True) :
    ∀ o ∈ (Model.ofGraph g operations target config).operations, Q o := by
  have hnone : (assembled g target config).model.operations = [] := (foldl_commit (kept g target config) _).2.2.1
  rw [ofGraph_eq]
  refine (lowerOperations_run (I := fun before a => before ⊆ operations → ∀ o ∈ a.model.operations, Q o) ?_ operations []
    (assembled g target config) fun _ => by simp [hnone]) (List.Subset.refl _)
  intro before o a a' h hstep hbefore
  have hoperations := h (List.Subset.trans (List.subset_append_left _ _) hbefore)
  cases hstep with
  | @added operation draft hrun =>
    have hanswer := (hoperation ((operationContext g target config).during a.inlineNames o.id) rfl o
      (hbefore (List.mem_append_right _ List.mem_cons_self)) _).answer hrun
    exact List.forall_mem_append.2 ⟨hoperations, by simpa using hanswer⟩
  | failed => exact hoperations

end Lowering

end ContractBindings
