import ContractBindings.Proofs.Model.Composed
import ContractBindings.Proofs.Model.Outline
import ContractBindings.Proofs.Model.Propagation
import ContractBindings.Proofs.Model.Shapeless
import ContractBindings.Proofs.Model.Sources

/-!
# Lowering payloads

The schema of a parameter, body or response is a payload: besides being clean, it must have a shape where payloads without
one are rejected, and then a reference over any chain to a definition without a shape is refused, too (`Context.Accepts`).
Otherwise a payload is lowered like any other schema (`lower_payload`), so an operation is lowered exactly if its payloads
are accepted (`lowerOperation_decides`). That again needs nodes that are known by their identities. Other nodes may be lowered
before; what they record of the known ones is clean, too (`lower_recordsCleanly`).
-/

namespace ContractBindings

open Naming

/-- A definition with the identity of a node has the shape of the node. -/
def SchemaGraph.Stands (g : SchemaGraph) (n : SchemaNode) : Prop :=
  g.defines n.id = true → ∃ node, g.node? n.id = some node ∧ node.shape = n.shape

namespace Lowering

/-! ## Payloads without a shape -/

section Shapeless

variable {g : SchemaGraph} {n : SchemaNode}

/-- The chain of a definition ends without a shape if its node is without one. -/
theorem endsShapeless_iff_shapeless {k : SchemaId} {node : SchemaNode} (hnode : g.node? k = some node) :
    g.EndsShapeless k ↔ g.Shapeless node := by
  constructor
  · intro h
    rcases h.cases with ⟨node', hnode', hshape⟩ | ⟨t, node', hnode', hshape, ht⟩
    · obtain rfl : node = node' := Option.some.inj (hnode.symm.trans hnode')
      exact .inl hshape
    · obtain rfl : node = node' := Option.some.inj (hnode.symm.trans hnode')
      exact .inr ⟨t, hshape, ht⟩
  · rintro (hshape | ⟨t, hshape, ht⟩)
    · exact ⟨k, .refl, node, hnode, hshape⟩
    · exact .of_sendsOn (sendsOn_of_node? hnode hshape) ht

/-- A payload stands for a definition without a shape exactly if it is shapeless, unless it is a schema without a shape in
its own place. -/
theorem shapelessDefinition_isSome_iff_shapeless (hstands : g.Stands n)
    (hplace : n.shape = .unknown → g.defines n.id = true) :
    (shapelessDefinition g n).isSome = true ↔ g.Shapeless n := by
  cases hdefines : g.defines n.id with
  | true =>
    obtain ⟨node, hnode, hshape⟩ := hstands hdefines
    rw [shapelessDefinition_isSome_iff_of_defines hdefines, endsShapeless_iff_shapeless hnode, SchemaGraph.Shapeless,
      SchemaGraph.Shapeless, hshape]
  | false =>
    have hshape : n.shape ≠ .unknown := fun h => Bool.false_ne_true (hdefines.symm.trans (hplace h))
    rw [shapelessDefinition_isSome_iff hdefines]
    exact (or_iff_right hshape).symm

end Shapeless

variable {c : Context} {n : SchemaNode} {s : Draft}

/-- A payload that stands for a definition without a shape is refused where that is rejected. -/
theorem known?_refuses (hreject : c.config.unknownPayloads = .reject)
    (h : (shapelessDefinition c.graph n).isSome = true) :
    Ends (known? c n .payload) s (fun _ _ => False) fun _ _ => True := by
  obtain ⟨last, hlast⟩ := Option.isSome_iff_exists.1 h
  unfold known? unknownShape
  simp [hreject, hlast]

/-- A payload that stands for no such definition is looked up like any node. -/
theorem known?_payload (h : c.config.unknownPayloads = .reject → shapelessDefinition c.graph n = none) :
    known? c n .payload = known? c n .nested := by
  unfold known?
  cases hpolicy : c.config.unknownPayloads with
  | reject => simp [h hpolicy]
  | opaqueValue => simp

/-- A shape that is known is described in the same way at every position. -/
theorem describe_payload {id : SchemaId} {hint : String} {shape : Shape} (hplain : isComposite shape = false)
    (h : shape ≠ .unknown) : describe c id hint .payload shape = describe c id hint .nested shape := by
  cases shape with
  | unknown => exact absurd rfl h
  | union branches discriminator => cases hplain
  | intersection parts => cases hplain
  | _ => simp only [describe]

/-- A payload with a shape that is not refused is lowered like any node. -/
theorem lower_payload {hint : String} (hshape : n.shape ≠ .unknown)
    (h : c.config.unknownPayloads = .reject → shapelessDefinition c.graph n = none) :
    lower c hint .payload n = lower c hint .nested n := by
  obtain ⟨id, title, description, nullable, shape⟩ := n
  rw [lower, lower, known?_payload h]
  cases hcomposite : isComposite shape with
  | true => rfl
  | false => rw [describe_payload hcomposite hshape]

/-- A node that is a definition is used by its name. -/
theorem known?_defined (hdefines : c.graph.defines n.id = true) :
    known? c n .nested = do return some (.mk (← useDefinition c n.id) n.nullable) := by
  unfold known?
  simp [hdefines]

/-- A node that is no definition and has no name is looked into. -/
theorem known?_new (hdefines : c.graph.defines n.id = false) (hnamed : n.id ∉ c.inlineNames.map (·.1))
    (hrecorded : n.id ∉ s.recorded) :
    Ends (known? c n .nested) s (fun type s' => type = none ∧ s' = s) fun _ _ => False := by
  obtain ⟨x, hx, hrun⟩ := known?_as c n .nested s
  refine .of_run_eq hrun ?_
  cases hx with
  | refused hpayload _ _ => cases hpayload
  | definition h => exact absurd h (by simp [hdefines])
  | named _ hname =>
    rcases hname with h | h
    · exact absurd (List.mem_map_of_mem (f := (·.1)) h) hnamed
    · exact absurd (List.mem_map_of_mem (f := (·.1)) h) hrecorded
  | new _ _ _ => exact ends_pure.2 ⟨rfl, rfl⟩

/-- A schema without a shape in its own place is kept as an opaque value, unless such payloads are rejected. -/
theorem lower_unknown {hint : String} (hshape : n.shape = .unknown) (hdefines : c.graph.defines n.id = false)
    (hnamed : n.id ∉ c.inlineNames.map (·.1)) (hrecorded : n.id ∉ s.recorded) :
    Ends (lower c hint .payload n) s
      (fun _ s' => c.config.unknownPayloads ≠ .reject ∧ s'.outline = s.outline)
      fun _ _ => c.config.unknownPayloads = .reject := by
  have hnone : shapelessDefinition c.graph n = none := by
    rw [← Option.not_isSome_iff_eq_none, shapelessDefinition_isSome_iff hdefines, hshape]
    rintro ⟨t, ht, -⟩
    cases ht
  obtain ⟨id, title, description, nullable, shape⟩ := n
  obtain rfl : shape = .unknown := hshape
  rw [lower, known?_payload fun _ => hnone]
  refine ends_bind.2 ((known?_new hdefines hnamed hrecorded).mono ?_ fun _ _ h => h.elim)
  rintro type s' ⟨rfl, rfl⟩
  simp only [isComposite, Bool.false_eq_true, ↓reduceIte, describe, unknownShape]
  cases hpolicy : c.config.unknownPayloads with
  | reject => simp
  | opaqueValue =>
    refine ends_bind.2 (ends_bind.2 ((Silent.warn s').mono (fun _ t h => ?_) fun _ _ h => h.elim))
    exact ends_pure.2 (ends_pure.2 ⟨by simp, h⟩)

/-! ## Payloads that are accepted -/

/-- A payload that can be lowered: it has a shape where payloads without one are rejected, and it is clean or a schema without
a shape in its own place. -/
structure Context.Accepts (c : Context) (n : SchemaNode) : Prop where
  shaped : c.config.unknownPayloads = .reject → ¬ c.graph.Shapeless n
  clean : c.Clean n.shape ∨ n.shape = .unknown ∧ c.graph.defines n.id = false

section Decides

variable {inner : SchemaNode → Prop} {bound : Nat}

theorem Draft.recorded_eq {s s' : Draft} (h : s.outline = s'.outline) : s.recorded = s'.recorded := congrArg (·.2.1) h

/-- Computations that end in a matching way succeed in the same cases, and record the same. -/
theorem Decides.of_alongside {x : Lower α} {y : Lower β} {P : Prop} (hy : Decides c inner bound y P)
    (h : Alongside x y) : Decides c inner bound x P := by
  intro s hs
  have hm := h s s rfl
  rcases hrun : x.run.run s with ⟨answer, t⟩
  rcases hrun' : y.run.run s with ⟨answer', t'⟩
  rw [hrun, hrun'] at hm
  rw [Ends, hrun]
  cases hm with
  | answers _ houtline =>
    obtain ⟨hP, hcleanly⟩ := (hy s hs).answer hrun'
    have hkeys : t.inlineNames.map (·.1) = t'.inlineNames.map (·.1) := Draft.recorded_eq houtline
    exact ⟨hP, fun m hm hrecorded => hcleanly m hm (hkeys ▸ hrecorded)⟩
  | failures => exact (hy s hs).failure hrun'

theorem Decides.claim (base : String) : Decides c inner bound (Lowering.claim base) True :=
  fun _ _ => ends_modifyGet.2 ⟨trivial, fun _ _ h => .inl h⟩

variable (hc : c.Discerns inner) (hstands : ∀ m, inner m → c.graph.Stands m)

include hc hstands

/-- Lowering a payload succeeds exactly if it is accepted. -/
theorem lower_accepts (hn : inner n) (hlt : sizeOf n.shape < bound) (hint : String) :
    Decides c inner bound (lower c hint .payload n) (c.Accepts n) := by
  intro s hs
  by_cases hplace : n.shape = .unknown → c.graph.defines n.id = true
  · have hshapeless := shapelessDefinition_isSome_iff_shapeless (hstands n hn) hplace
    by_cases hrefused : c.config.unknownPayloads = .reject ∧ c.graph.Shapeless n
    · have hnot : ¬ c.Accepts n := fun h => h.shaped hrefused.1 hrefused.2
      obtain ⟨id, title, description, nullable, shape⟩ := n
      rw [lower]
      exact ends_bind.2 ((known?_refuses hrefused.1 (hshapeless.2 hrefused.2)).mono (fun _ _ h => h.elim) fun _ _ _ => hnot)
    · have hnone : c.config.unknownPayloads = .reject → shapelessDefinition c.graph n = none := by
        intro hreject
        rw [← Option.not_isSome_iff_eq_none, hshapeless]
        exact fun h => hrefused ⟨hreject, h⟩
      have hiff : c.Clean n.shape ↔ c.Accepts n := by
        refine ⟨fun h => ⟨fun hreject hs => hrefused ⟨hreject, hs⟩, .inl h⟩, fun h => h.clean.resolve_right fun hbare => ?_⟩
        exact Bool.false_ne_true (hbare.2.symm.trans (hplace hbare.1))
      by_cases hshape : n.shape = .unknown
      · -- the shape is described by another policy, but a definition is used by its name
        have huse : Decides c inner bound (useDefinition c n.id) (c.Accepts n) :=
          (Decides.useDefinition n.id).congr ((hc.defined hn (hplace hshape)).symm.trans hiff)
        obtain ⟨id, title, description, nullable, shape⟩ := n
        rw [lower, known?_payload hnone, known?_defined (hplace hshape)]
        refine ends_bind.2 (ends_bind.2 ((huse s hs).mono (fun kind s' h => ?_) fun _ _ h => h))
        exact ends_pure.2 (ends_pure.2 h)
      · rw [lower_payload hshape hnone]
        exact (lower_decides hc n hn hlt hint).congr hiff s hs
  · obtain ⟨hshape, hdefines⟩ := Classical.not_imp.1 hplace
    have hplain : isComposite n.shape = false := by rw [hshape]; rfl
    have hnew : n.id ∉ c.inlineNames.map (·.1) ∧ n.id ∉ s.recorded := by
      constructor
      · exact fun h => Bool.false_ne_true (hplain.symm.trans (hc.named hn h).composite)
      · intro h
        rcases hs n hn h with hforms | hle
        · exact Bool.false_ne_true (hplain.symm.trans hforms.composite)
        · omega
    have hdefines : c.graph.defines n.id = false := Bool.eq_false_iff.2 hdefines
    refine (lower_unknown hshape hdefines hnew.1 hnew.2).mono ?_ fun _ _ hreject haccepts => ?_
    · rintro type s' ⟨hpolicy, houtline⟩
      have hkeys : s'.inlineNames.map (·.1) = s.inlineNames.map (·.1) := Draft.recorded_eq houtline
      exact ⟨⟨fun hreject => absurd hreject hpolicy, .inr ⟨hshape, hdefines⟩⟩, fun m _ hm => .inl (hkeys ▸ hm)⟩
    · exact haccepts.shaped hreject (.inl hshape)

/-! ## Operations -/

/-- The nodes of a list can be lowered below a bound: they are in the set, and their shapes are smaller. -/
def Below (inner : SchemaNode → Prop) (bound : Nat) (nodes : List SchemaNode) : Prop :=
  ∀ m ∈ nodes, inner m ∧ sizeOf m.shape < bound

theorem lowerAll_decides : ∀ nodes : List SchemaNode, Below inner bound nodes →
    Decides c inner bound (lowerAll c nodes) (∀ n ∈ nodes, c.Accepts n)
  | [], _ => Decides.pure (by simp)
  | n :: rest, hbelow => by
    obtain ⟨⟨hn, hlt⟩, hrest⟩ := List.forall_mem_cons.1 hbelow
    rw [lowerAll, List.forall_mem_cons]
    exact (lower_accepts hc hstands hn hlt _).bind fun _ => lowerAll_decides rest hrest

/-- Lowering an operation succeeds exactly if its payloads are accepted. -/
theorem lowerOperation_decides (o : Operation) (hbelow : Below inner bound o.schemas) :
    Decides c inner bound (lowerOperation c o) (∀ n ∈ o.schemas, c.Accepts n) :=
  (lowerAll_decides hc hstands o.schemas hbelow).of_alongside (lowerOperation_lowerAll c o)

end Decides

/-! ## What other nodes record -/

/-- A computation that records no known node unless it forms a type, if it gives an answer. -/
def RecordsCleanly (c : Context) (inner : SchemaNode → Prop) (bound : Nat) (x : Lower α) : Prop :=
  ∀ s, Draft.Settled c inner bound s → Ends x s (fun _ s' => Draft.Cleanly c inner s s') fun _ _ => True

/-- Where a node becomes a type and a known node has its identity, it is known itself. -/
def Consistent (inner : SchemaNode → Prop) (n : SchemaNode) : Prop :=
  ∀ k, n.Bears k.id k.shape → isComposite k.shape = true → (∃ m, inner m ∧ m.id = k.id) → inner k

namespace RecordsCleanly

variable {inner : SchemaNode → Prop} {bound : Nat} {x : Lower α}

theorem of_decides {P : Prop} (h : Decides c inner bound x P) : RecordsCleanly c inner bound x :=
  fun s hs => (h s hs).mono (fun _ _ h => h.2) fun _ _ _ => trivial

theorem pure (a : α) : RecordsCleanly c inner bound (Pure.pure a : Lower α) := of_decides (.pure trivial)

theorem throw (e : Diagnostic) : RecordsCleanly c inner bound (MonadExcept.throw e : Lower α) :=
  fun _ _ => ends_throw.2 trivial

theorem bind {f : α → Lower β} (hx : RecordsCleanly c inner bound x) (hf : ∀ a, RecordsCleanly c inner bound (f a)) :
    RecordsCleanly c inner bound (x >>= f) := by
  intro s hs
  refine ends_bind.2 ((hx s hs).mono (fun a s' h => ?_) fun _ _ _ => trivial)
  exact (hf a s' (hs.after h)).mono (fun _ _ h' => h.trans h') fun _ _ _ => trivial

theorem map {f : α → β} (hx : RecordsCleanly c inner bound x) : RecordsCleanly c inner bound (f <$> x) :=
  fun s hs => ends_map.2 (hx s hs)

theorem of_traverses {position : Position} {nodes : List SchemaNode} (h : Traverses c position nodes x)
    (hnodes : ∀ m ∈ nodes, ∀ hint, RecordsCleanly c inner bound (lower c hint position m)) :
    RecordsCleanly c inner bound x := by
  induction h with
  | pure a => exact pure a
  | throw e => exact throw e
  | warn code message => exact of_decides (.warn code message)
  | node hint n => exact hnodes n List.mem_cons_self hint
  | bind _ _ ihx ihf =>
    obtain ⟨hfirst, hsecond⟩ := List.forall_mem_append.1 hnodes
    exact (ihx hfirst).bind fun a => ihf a hsecond

/-- Nothing is recorded by looking a node up. -/
theorem known? (n : SchemaNode) (position : Position) : RecordsCleanly c inner bound (Lowering.known? c n position) := by
  have hquiet {β : Type} {y : Lower β} (h : Traverses c .nested [] y) : RecordsCleanly c inner bound y :=
    of_traverses h fun _ hm => by cases hm
  intro s hs
  obtain ⟨x, hx, hrun⟩ := known?_as c n position s
  refine .of_run_eq hrun ?_
  cases hx with
  | refused _ _ _ => exact (hquiet (.unknownShape _ _)).map s hs
  | definition _ => exact ((hquiet (.useDefinition _)).bind fun _ => pure _) s hs
  | named _ _ => exact pure _ s hs
  | new _ _ _ => exact pure _ s hs

/-- A node that becomes a type with the identity of no known node. -/
theorem defineInline {id : SchemaId} {title doc : Option String} {hint : String} {body : String → Lower TypeBody}
    (hid : ∀ m, inner m → m.id ≠ id) (hbody : ∀ name, RecordsCleanly c inner bound (body name)) :
    RecordsCleanly c inner bound (Lowering.defineInline id title doc hint body) := by
  intro s hs
  have hsame (r : Registry) (name : String) : Draft.Cleanly c inner s
      { s with registry := r, inlineNames := s.inlineNames ++ [(id, name)] } := by
    intro m hm hrecorded
    rw [List.map_append, List.mem_append] at hrecorded
    exact .inl (hrecorded.resolve_right fun h => hid m hm (by simpa using h))
  rw [ends_defineInline]
  exact (hbody _ _ (hs.after (hsame _ _))).mono (fun _ _ h => (hsame _ _).trans h) fun _ _ _ => trivial

end RecordsCleanly

section Records

variable {inner : SchemaNode → Prop} {bound : Nat} (hc : c.Discerns inner) (hstands : ∀ m, inner m → c.graph.Stands m)

include hc hstands

/-- Lowering any node records no known node unless it forms a type. -/
theorem lower_recordsCleanly (n : SchemaNode) (hconsistent : Consistent inner n) (hlt : sizeOf n.shape < bound) :
    ∀ hint position, RecordsCleanly c inner bound (lower c hint position n) := by
  induction n using SchemaNode.inductionOnChildren with
  | step n ih =>
    have hinside {α : Type} {x : Lower α} (h : Traverses c .nested n.shape.children x) :
        RecordsCleanly c inner bound x := by
      refine .of_traverses h fun m hm hint => ih m hm (fun k hk => hconsistent k (hk.of_child hm)) ?_ hint .nested
      exact Nat.lt_trans (Nat.lt_trans m.sizeOf_shape_lt (sizeOf_lt_of_mem_children hm)) hlt
    intro hint position
    by_cases hknown : isComposite n.shape = true ∧ ∃ m, inner m ∧ m.id = n.id
    · have hn : inner n := hconsistent n (.inl ⟨rfl, rfl⟩) hknown.1 hknown.2
      cases position with
      | payload => exact .of_decides (lower_accepts hc hstands hn hlt hint)
      | nested => exact .of_decides (lower_decides hc n hn hlt hint)
    · obtain ⟨id, title, description, nullable, shape⟩ := n
      rw [lower]
      refine (RecordsCleanly.known? _ position).bind fun type => ?_
      cases type with
      | some type => exact .pure _
      | none =>
        dsimp only
        split
        · next hcomposite =>
          refine (RecordsCleanly.map (.defineInline (fun m hm hid => hknown ⟨hcomposite, m, hm, hid⟩) fun name => ?_)).bind
            fun type => .pure _
          exact hinside (compose_traverses c id name hcomposite)
        · next hplain =>
          exact (hinside (describe_traverses c id hint position (Bool.eq_false_iff.2 hplain))).bind fun type => .pure _

theorem lowerOperation_recordsCleanly (o : Operation) (hconsistent : ∀ n ∈ o.schemas, Consistent inner n)
    (hlt : ∀ n ∈ o.schemas, sizeOf n.shape < bound) : RecordsCleanly c inner bound (lowerOperation c o) := by
  have hclaim (base : String) : RecordsCleanly c inner bound (claim base) := .of_decides (.claim base)
  obtain ⟨rest, hrest, heq⟩ := lowerOperation_traverses c o
  rw [heq]
  refine (hclaim _).bind fun request => (hclaim _).bind fun response => (hclaim _).bind fun service => ?_
  exact .of_traverses (hrest request response service) fun n hn hint =>
    lower_recordsCleanly hc hstands n (hconsistent n hn) (hlt n hn) hint .payload

end Records

end Lowering

/-! ## Nodes that are told by their identities -/

/-- A type is made of a node in the shape that becomes one. -/
theorem Shape.Makes.holds {g : SchemaGraph} {s : Shape} {id : SchemaId} (h : s.Makes g id) :
    ∃ m, s.Holds m ∧ m.id = id ∧ Lowering.isComposite m.shape = true := by
  induction h with
  | child hm _ hcomposite => exact ⟨_, .child hm, rfl, hcomposite⟩
  | deeper hm _ _ ih =>
    obtain ⟨k, hk, hid, hcomposite⟩ := ih
    exact ⟨k, .deeper hm hk, hid, hcomposite⟩

theorem SchemaNode.Bears.child {n k : SchemaNode} {id : SchemaId} {shape : Shape} (h : n.Bears id shape)
    (hk : k ∈ shape.children) : n.Bears k.id k.shape := by
  rcases h with ⟨-, rfl⟩ | ⟨m, hm, -, rfl⟩
  · exact .inr ⟨k, .child hk, rfl, rfl⟩
  · exact .inr ⟨k, hm.trans (.child hk), rfl, rfl⟩

namespace SchemaGraph

variable {g : SchemaGraph} {operations : List Operation} {id : SchemaId} {shape : Shape} {m n : SchemaNode}

theorem Bears.child {k : SchemaNode} (h : g.Bears operations id shape) (hk : k ∈ shape.children) :
    g.Bears operations k.id k.shape := by
  cases h with
  | definition hd hnode _ hshape => exact .inside hd hnode (hshape ▸ hk) (.inl ⟨rfl, rfl⟩)
  | inside hd hnode hm hbears => exact .inside hd hnode hm (hbears.child hk)
  | operation ho hn hbears => exact .operation ho hn (hbears.child hk)

theorem Bears.of_holds {d : Definition} {node : SchemaNode} (hd : d ∈ g.definitions) (hnode : d.node = .ok node)
    (hm : node.shape.Holds m) : g.Bears operations m.id m.shape := by
  obtain ⟨k, hk, rfl | hm⟩ := hm.cases_children
  · exact .inside hd hnode hk (.inl ⟨rfl, rfl⟩)
  · exact .inside hd hnode hk (.inr ⟨m, hm, rfl, rfl⟩)

/-- The shapes in a node are told by their identities: where a shape that becomes a type stands at one of them, and where a
definition has it, the shape is the same. -/
def Tells (g : SchemaGraph) (operations : List Operation) (n : SchemaNode) : Prop :=
  ∀ id shape, n.Bears id shape →
    (∀ shape', g.Bears operations id shape' → Lowering.isComposite shape' = true → shape' = shape) ∧
      ∀ d ∈ g.definitions, d.id = id → ∃ node, d.node = .ok node ∧ node.shape = shape

/-- A node that stands in a definition or an operation, and is told by its identity with all that stands in it. -/
structure Told (g : SchemaGraph) (operations : List Operation) (n : SchemaNode) : Prop where
  bears : g.Bears operations n.id n.shape
  tells : g.Tells operations n

namespace Told

theorem composite {m : SchemaNode} (h : g.Told operations n) (hbears : g.Bears operations m.id m.shape)
    (hcomposite : Lowering.isComposite m.shape = true) (hid : m.id = n.id) : m.shape = n.shape :=
  (h.tells n.id n.shape (.inl ⟨rfl, rfl⟩)).1 m.shape (hid ▸ hbears) hcomposite

theorem definition (h : g.Told operations n) {d : Definition} (hd : d ∈ g.definitions) (hid : d.id = n.id) :
    ∃ node, d.node = .ok node ∧ node.shape = n.shape :=
  (h.tells n.id n.shape (.inl ⟨rfl, rfl⟩)).2 d hd hid

theorem child (h : g.Told operations n) (hm : m ∈ n.shape.children) : g.Told operations m where
  bears := h.bears.child hm
  tells := fun id shape hbears => h.tells id shape (hbears.of_child hm)

theorem of_shape (h : g.Told operations n) (hid : m.id = n.id) (hshape : m.shape = n.shape) : g.Told operations m where
  bears := hid ▸ hshape ▸ h.bears
  tells := by
    rintro id shape (⟨hmid, hmshape⟩ | hinside)
    · exact h.tells id shape (.inl ⟨hid ▸ hmid, hshape ▸ hmshape⟩)
    · exact h.tells id shape (.inr (hshape ▸ hinside))

theorem stands (h : g.Told operations n) : g.Stands n := by
  intro hdefines
  obtain ⟨d, hget⟩ := Option.isSome_iff_exists.1 hdefines
  have hid : d.id = n.id := beq_iff_eq.1 (List.find?_some hget :)
  obtain ⟨node, hnode, hshape⟩ := h.definition (List.mem_of_find?_eq_some hget) hid
  refine ⟨node, ?_, hshape⟩
  rw [SchemaGraph.node?, hget, Option.bind_some, hnode]
  rfl

end Told

end SchemaGraph

/-! ## Where no two schemas have one identity -/

mutual

/-- The shapes that a node bears, with the identities where they stand. -/
def SchemaNode.borne : SchemaNode → List (SchemaId × Shape)
  | .mk id _ _ _ shape => (id, shape) :: shape.borne

/-- The shapes of the nodes in a shape, with the identities where they stand. -/
def Shape.borne : Shape → List (SchemaId × Shape)
  | .array items => Shape.borneByOption items
  | .object fields _ additional => Shape.borneByFields fields ++ Shape.borneByOption additional
  | .union branches _ => Shape.borneByList branches
  | .intersection parts => Shape.borneByList parts
  | _ => []

/-- The shapes that a schema bears that may be absent. -/
def Shape.borneByOption : Option SchemaNode → List (SchemaId × Shape)
  | some node => node.borne
  | none => []

/-- The shapes that a list of schemas bears. -/
def Shape.borneByList : List SchemaNode → List (SchemaId × Shape)
  | [] => []
  | node :: rest => node.borne ++ Shape.borneByList rest

/-- The shapes that fields bear. -/
def Shape.borneByFields : List (String × SchemaNode) → List (SchemaId × Shape)
  | [] => []
  | (_, node) :: rest => node.borne ++ Shape.borneByFields rest

end

section Borne

variable {n : SchemaNode} {s : Shape} {id : SchemaId} {shape : Shape}

theorem Shape.mem_borneByList {x : SchemaId × Shape} : ∀ {nodes : List SchemaNode}, n ∈ nodes → x ∈ n.borne →
    x ∈ borneByList nodes
  | _ :: _, hn, hx => by
    rw [borneByList]
    rcases List.mem_cons.1 hn with rfl | hn
    · exact List.mem_append_left _ hx
    · exact List.mem_append_right _ (mem_borneByList hn hx)

theorem Shape.borneByFields_eq : ∀ fields : List (String × SchemaNode), borneByFields fields = borneByList (fields.map (·.2))
  | [] => rfl
  | (_, node) :: rest => by rw [borneByFields, List.map_cons, borneByList, borneByFields_eq rest]

theorem Shape.borneByOption_eq (n : Option SchemaNode) : borneByOption n = borneByList n.toList := by
  cases n with
  | none => rfl
  | some node => exact (List.append_nil _).symm

/-- What a child bears, the shape holds. -/
theorem Shape.mem_borne_of_child {x : SchemaId × Shape} (hn : n ∈ s.children) (hx : x ∈ n.borne) : x ∈ s.borne := by
  cases s with
  | array items =>
    rw [borne, borneByOption_eq]
    exact mem_borneByList hn hx
  | object fields required additional =>
    rw [borne, borneByFields_eq, borneByOption_eq]
    exact List.mem_append.2 ((List.mem_append.1 hn).imp (mem_borneByList · hx) (mem_borneByList · hx))
  | union branches discriminator => exact mem_borneByList hn hx
  | intersection parts => exact mem_borneByList hn hx
  | _ => cases hn

/-- The list of what a node bears is complete. -/
theorem SchemaNode.Bears.mem_borne (h : n.Bears id shape) : (id, shape) ∈ n.borne := by
  have hheld {s : Shape} {m : SchemaNode} (hm : s.Holds m) : (m.id, m.shape) ∈ s.borne := by
    induction hm with
    | @child s m hm =>
      refine Shape.mem_borne_of_child hm ?_
      obtain ⟨id, title, description, nullable, shape⟩ := m
      exact List.mem_cons_self
    | @deeper s m k hm _ ih =>
      refine Shape.mem_borne_of_child hm ?_
      obtain ⟨id, title, description, nullable, shape⟩ := m
      exact List.mem_cons_of_mem _ ih
  obtain ⟨nid, title, description, nullable, nshape⟩ := n
  rcases h with ⟨rfl, rfl⟩ | ⟨m, hm, rfl, rfl⟩
  · exact List.mem_cons_self
  · exact List.mem_cons_of_mem _ (hheld hm)

end Borne

namespace SchemaGraph

variable {g : SchemaGraph} {operations : List Operation}

/-- The shapes of the definitions, with the identities where they stand. -/
def borne (g : SchemaGraph) : List (SchemaId × Shape) :=
  g.definitions.flatMap fun d =>
    match d.node with
    | .ok node => (d.id, node.shape) :: node.shape.borne
    | .error _ => [(d.id, .unknown)]

/-- If no two schemas of definitions and operations have one identity, all schemas of operations are told by theirs. -/
theorem tells_of_nodup
    (h : ((g.borne ++ operations.flatMap fun o => o.schemas.flatMap SchemaNode.borne).map (·.1)).Nodup) {o : Operation}
    (ho : o ∈ operations) {n : SchemaNode} (hn : n ∈ o.schemas) : g.Tells operations n := by
  have hinside {d : Definition} (hd : d ∈ g.definitions) {node : SchemaNode} (hnode : d.node = .ok node)
      {x : SchemaId × Shape} (hx : x ∈ (d.id, node.shape) :: node.shape.borne) : x ∈ g.borne :=
    List.mem_flatMap.2 ⟨d, hd, by rwa [hnode]⟩
  have hoperation {o : Operation} (ho : o ∈ operations) {n : SchemaNode} (hn : n ∈ o.schemas) {id : SchemaId} {shape : Shape}
      (hbears : n.Bears id shape) : (id, shape) ∈ operations.flatMap fun o => o.schemas.flatMap SchemaNode.borne :=
    List.mem_flatMap.2 ⟨o, ho, List.mem_flatMap.2 ⟨n, hn, hbears.mem_borne⟩⟩
  intro id shape hbears
  have hmem := hoperation ho hn hbears
  refine ⟨fun shape' hbears' _ => ?_, fun d hd hid => ?_⟩
  · have hmem' : (id, shape') ∈ g.borne ++ operations.flatMap fun o => o.schemas.flatMap SchemaNode.borne := by
      cases hbears' with
      | definition hd hnode hid hshape =>
        exact List.mem_append_left _ (hinside hd hnode (by rw [← hid, ← hshape]; exact List.mem_cons_self))
      | inside hd hnode hm hbears' =>
        exact List.mem_append_left _
          (hinside hd hnode (List.mem_cons_of_mem _ (Shape.mem_borne_of_child hm hbears'.mem_borne)))
      | operation ho' hn' hbears' => exact List.mem_append_right _ (hoperation ho' hn' hbears')
    exact (Prod.mk.inj (List.inj_on_of_nodup_map h hmem' (List.mem_append_right _ hmem) rfl)).2
  · -- a definition stands in the first part of the list, and the schema in the last
    rw [List.map_append, List.nodup_append] at h
    have hkey : d.id ∈ g.borne.map (·.1) := by
      cases hnode : d.node with
      | ok node => exact List.mem_map_of_mem (f := (·.1)) (hinside hd hnode List.mem_cons_self)
      | error e =>
        refine List.mem_map_of_mem (f := (·.1)) (List.mem_flatMap.2 ⟨d, hd, ?_⟩ : (d.id, Shape.unknown) ∈ g.borne)
        rw [hnode]
        exact List.mem_singleton_self _
    exact absurd hid (h.2.2 d.id hkey id (List.mem_map_of_mem (f := (·.1)) hmem))

end SchemaGraph

namespace Lowering

variable {g : SchemaGraph} {operations : List Operation} {target : Target} {config : Config}

theorem Context.Clean.of_holds {c : Context} {s : Shape} {m : SchemaNode} (h : c.Clean s) (hm : s.Holds m) :
    c.Clean m.shape :=
  ⟨h.inside hm, fun hk => h.inside (hm.trans hk)⟩

/-- What an operation has recorded before changes nothing in what is clean. -/
@[simp]
theorem Context.clean_during {c : Context} {names : List (SchemaId × String)} {unit : String} {s : Shape} :
    (c.during names unit).Clean s ↔ c.Clean s :=
  ⟨fun h => ⟨⟨h.admits.shaped, h.admits.usable⟩, fun hm => ⟨(h.inside hm).shaped, (h.inside hm).usable⟩⟩,
    fun h => ⟨⟨h.admits.shaped, h.admits.usable⟩, fun hm => ⟨(h.inside hm).shaped, (h.inside hm).usable⟩⟩⟩

@[simp]
theorem Context.forms_during {c : Context} {names : List (SchemaId × String)} {unit : String} {s : Shape} :
    (c.during names unit).Forms s ↔ c.Forms s :=
  ⟨fun h => ⟨h.composite, Context.clean_during.1 h.clean⟩, fun h => ⟨h.composite, Context.clean_during.2 h.clean⟩⟩

@[simp]
theorem Context.accepts_during {c : Context} {names : List (SchemaId × String)} {unit : String} {n : SchemaNode} :
    (c.during names unit).Accepts n ↔ c.Accepts n :=
  ⟨fun h => ⟨h.shaped, h.clean.imp_left Context.clean_during.1⟩,
    fun h => ⟨h.shaped, h.clean.imp_left Context.clean_during.2⟩⟩

theorem sizeOf_shape_lt_schemas {o : Operation} {n : SchemaNode} (hn : n ∈ o.schemas) :
    sizeOf n.shape < sizeOf o.schemas := Nat.lt_trans n.sizeOf_shape_lt (List.sizeOf_lt_of_mem hn)

/-- Where payloads without a shape are rejected and other schemas without one are not, a payload is accepted if it is not
shapeless and refers to definitions that are not lost. -/
theorem operationContext_accepts_iff (hids : (g.definitions.map (·.id)).Nodup) (hpayloads : config.unknownPayloads = .reject)
    (hfields : config.unknownFields = .opaqueValue) {n : SchemaNode}
    (htargets : ∀ t ∈ n.references, t ∈ g.definitions.map (·.id)) :
    (operationContext g target config).Accepts n ↔
      ¬ g.Shapeless n ∧ ∀ t ∈ n.references, t ∉ lost g target config := by
  have hname {t : SchemaId} (ht : t ∈ n.references) (hl : t ∉ lost g target config) :
      ((named g target).names.lookup t).isSome = true := by
    obtain ⟨p, hp, rfl⟩ := List.mem_map.1 ((mem_kept_iff hids (htargets t ht)).2 hl)
    obtain ⟨_, -, _, _, _, name, -, -, hname, -⟩ := kept_defines hp
    simp [hname]
  have hclean : (operationContext g target config).Clean n.shape ↔ ∀ t ∈ n.references, t ∉ lost g target config := by
    have hpolicy : config.unknownFields ≠ .reject := by simp [hfields]
    rw [clean_iff_references, SchemaNode.references_eq]
    refine (and_iff_right fun hreject => absurd hreject hpolicy).trans (forall₂_congr fun t ht => and_iff_right_of_imp ?_)
    exact fun hl => hname (by rwa [SchemaNode.references_eq]) hl
  constructor
  · intro h
    have hshaped := h.shaped hpayloads
    exact ⟨hshaped, hclean.1 (h.clean.resolve_right fun hplace => hshaped (.inl hplace.1))⟩
  · exact fun h => ⟨fun _ => h.1, .inl (hclean.2 h.2)⟩

/-- What the definitions have recorded stands in one of them that is not lost, and becomes a type. -/
theorem assembled_recorded {id : SchemaId} (h : id ∈ (assembled g target config).inlineNames.map (·.1)) :
    ∃ d ∈ g.definitions, ∃ node k, d.node = .ok node ∧ d.id ∉ lost g target config ∧ node.shape.Holds k ∧ k.id = id ∧
      isComposite k.shape = true := by
  obtain ⟨-, -, -, -, hinline⟩ := foldl_commit (kept g target config)
    ⟨(drafted g target config).registry, [],
      ⟨[], [], (drafted g target config).diagnostics ++ (spreaded g target config).2⟩⟩
  obtain ⟨x, hx, rfl⟩ := List.mem_map.1 h
  rcases hinline x hx with hx | ⟨p, hp, hx⟩
  · cases hx
  · obtain ⟨d, hd, node, hpid, hnode, -, -, hmade⟩ := kept_sources hp
    obtain ⟨k, hk, hkid, hcomposite⟩ := (hmade x.1 (List.mem_map_of_mem hx)).2.holds
    exact ⟨d, hd, node, k, hnode, hpid ▸ (kept_traced hp).1, hk, hkid, hcomposite⟩

section Coherent

variable (hg : g.Coherent)

include hg

/-- A definition is clean for operations exactly if it is not lost. -/
theorem operationContext_clean_iff {d : Definition} (hd : d ∈ g.definitions) {node : SchemaNode} (hnode : d.node = .ok node) :
    (operationContext g target config).Clean node.shape ↔ d.id ∉ lost g target config := by
  have hmem : d.id ∈ g.definitions.map (·.id) := List.mem_map_of_mem hd
  constructor
  · intro hclean hl
    obtain ⟨hshaped, husable⟩ := clean_iff_references.1 hclean
    obtain ⟨b, hb, hbroken, hreach⟩ := lost_reachesBroken hg d.id hl
    rcases Relation.ReflTransGen.cases_head hreach with heq | ⟨y, hrefers, hway⟩
    · obtain rfl : d = b := List.inj_on_of_nodup_map hg.nodup hd hb heq
      rcases hbroken with ⟨e, he⟩ | ⟨hreject, node', hnode', hbare⟩
      · cases hnode.symm.trans he
      · obtain rfl : node = node' := Except.ok.inj (hnode.symm.trans hnode')
        exact hshaped hreject hbare
    · have hy := hg.targets hrefers
      obtain ⟨d', hd', hid, node', hnode', href⟩ := hrefers
      obtain rfl : d' = d := List.inj_on_of_nodup_map hg.nodup hd' hd hid
      obtain rfl : node = node' := Except.ok.inj (hnode.symm.trans hnode')
      rw [SchemaNode.references_eq] at href
      exact kept_not_reachesBroken hg hy (husable y href).2 ⟨b, hb, hbroken, hway⟩
  · intro hl
    obtain ⟨p, hp, hpid⟩ := List.mem_map.1 ((mem_kept_iff hg.nodup hmem).2 hl)
    obtain ⟨-, d', hd', failed, r, node', name, hdid, -, -, hlowered⟩ := kept_traced hp
    obtain rfl : d' = d := List.inj_on_of_nodup_map hg.nodup hd' hd (hdid.trans hpid)
    obtain rfl : node' = node := Except.ok.inj (hlowered.node_eq.symm.trans hnode)
    obtain ⟨hshaped, husable⟩ := clean_iff_references.1 ((lowered_clean hg hd hlowered).1 rfl)
    refine clean_iff_references.2 ⟨hshaped, fun t ht => ⟨(husable t ht).1, ?_⟩⟩
    exact not_lost_of_reference hg.nodup hd hnode hl (by rwa [SchemaNode.references_eq])

/-- Nodes that are told are known while an operation is lowered, if those with names form types. -/
theorem discerns_during {names : List (SchemaId × String)} (unit : String)
    (hnames : ∀ m, g.Told operations m → m.id ∈ names.map (·.1) → (operationContext g target config).Forms m.shape) :
    ((operationContext g target config).during names unit).Discerns (g.Told operations) where
  named := fun hm hnamed => Context.forms_during.2 (hnames _ hm hnamed)
  defined := by
    intro m hm hdefines
    obtain ⟨d, hd, hid⟩ := List.mem_map.1 (SchemaGraph.defines_iff.1 hdefines)
    obtain ⟨node, hnode, hshape⟩ := hm.definition hd hid
    have hname : ((named g target).names.lookup m.id).isSome = true :=
      lookup_names_isSome_iff.2 ⟨d, hd, hid, by simp [hnode, Except.isOk, Except.toBool]⟩
    rw [Context.clean_during, ← hshape, operationContext_clean_iff hg hd hnode, hid]
    exact (and_iff_right hname).symm
  unique := fun hm hm' hid hcomposite => (hm.composite hm'.bears hcomposite hid.symm).symm
  children := fun hm hk => hm.child hk

/-- Told nodes that the definitions have recorded form types. -/
theorem assembled_forms : ∀ m, g.Told operations m → m.id ∈ (assembled g target config).inlineNames.map (·.1) →
    (operationContext g target config).Forms m.shape := by
  intro m hm hrecorded
  obtain ⟨d, hd, node, k, hnode, hl, hk, hid, hcomposite⟩ := assembled_recorded hrecorded
  have hshape : k.shape = m.shape := hm.composite (.of_holds hd hnode hk) hcomposite hid
  have hclean : (operationContext g target config).Clean node.shape := (operationContext_clean_iff hg hd hnode).2 hl
  exact hshape ▸ ⟨hcomposite, hclean.of_holds hk⟩

/-! ## The operations of a model -/

/-- The operations lowered so far: told nodes with names form types, and an operation with told schemas is in the model exactly
if its payloads are accepted. -/
structure Assembly.Judges (g : SchemaGraph) (operations : List Operation) (target : Target) (config : Config)
    (before : List Operation) (a : Assembly) : Prop where
  forms : ∀ m, g.Told operations m → m.id ∈ a.inlineNames.map (·.1) → (operationContext g target config).Forms m.shape
  subset : a.model.operations.map (·.id) ⊆ before.map (·.id)
  accepts : ∀ o ∈ before, (∀ n ∈ o.schemas, g.Tells operations n) →
    (o.id ∈ a.model.operations.map (·.id) ↔ ∀ n ∈ o.schemas, (operationContext g target config).Accepts n)

/-- Told nodes that an operation has recorded form types. -/
theorem lowerOperation_forms {o : Operation} (ho : o ∈ operations) {a : Assembly}
    (hforms : ∀ m, g.Told operations m → m.id ∈ a.inlineNames.map (·.1) →
      (operationContext g target config).Forms m.shape) (r : Registry) :
    Ends (lowerOperation ((operationContext g target config).during a.inlineNames o.id) o) (Draft.start r)
      (fun _ draft => ∀ m, g.Told operations m → m.id ∈ draft.inlineNames.map (·.1) →
        (operationContext g target config).Forms m.shape)
      fun _ _ => True := by
  have hconsistent : ∀ n ∈ o.schemas, Consistent (g.Told operations) n := by
    rintro n hn k hk hcomposite ⟨m, hm, hid⟩
    exact hm.of_shape hid.symm (hm.composite (.operation ho hn hk) hcomposite hid.symm)
  have hrecords := lowerOperation_recordsCleanly (discerns_during hg o.id hforms) (fun m hm => hm.stands) o hconsistent
    fun n hn => sizeOf_shape_lt_schemas hn
  refine (hrecords _ (Draft.settled_start r)).mono (fun _ draft h m hm hrecorded => ?_) fun _ _ _ => trivial
  exact Context.forms_during.1 ((h m hm hrecorded).resolve_left (by simp [Draft.start]))

/-- Lowering an operation next keeps this. -/
theorem Assembly.Step.judges {before : List Operation} {o : Operation} {a a' : Assembly} (ho : o ∈ operations)
    (hid : o.id ∉ before.map (·.id)) (h : Assembly.Judges g operations target config before a)
    (hstep : Assembly.Step (operationContext g target config) o a a') :
    Assembly.Judges g operations target config (before ++ [o]) a' := by
  have hdecides (htells : ∀ n ∈ o.schemas, g.Tells operations n) :
      Ends (lowerOperation ((operationContext g target config).during a.inlineNames o.id) o) (Draft.start a.registry)
        (fun _ _ => ∀ n ∈ o.schemas, (operationContext g target config).Accepts n)
        fun _ _ => ¬ ∀ n ∈ o.schemas, (operationContext g target config).Accepts n := by
    have hbelow : Below (g.Told operations) (sizeOf o.schemas) o.schemas := fun n hn =>
      ⟨⟨.operation ho hn (.inl ⟨rfl, rfl⟩), htells n hn⟩, sizeOf_shape_lt_schemas hn⟩
    have hall := lowerOperation_decides (discerns_during hg o.id h.forms) (fun m hm => hm.stands) o hbelow
    simp only [Context.accepts_during] at hall
    exact (hall _ (Draft.settled_start a.registry)).mono (fun _ _ h => h.1) fun _ _ h => h
  have hold {o' : Operation} (ho' : o' ∈ before) : o'.id ≠ o.id :=
    fun heq => hid (heq ▸ List.mem_map_of_mem ho')
  rcases hstep with @⟨operation, draft, hrun⟩ | @⟨e, draft, hrun⟩
  · have heq : operation.id = o.id := (lowerOperation_id _ o _).answer hrun
    constructor
    case forms =>
      intro m hm hrecorded
      rw [List.map_append, List.mem_append, List.map_reverse, List.mem_reverse] at hrecorded
      exact hrecorded.elim ((lowerOperation_forms hg ho h.forms a.registry).answer hrun m hm) (h.forms m hm)
    case subset =>
      rw [List.map_append, List.map_append, List.map_singleton, List.map_singleton, heq]
      exact List.append_subset.2 ⟨List.Subset.trans h.subset (List.subset_append_left _ _), List.subset_append_right _ _⟩
    case accepts =>
      intro o' ho' htells
      rw [List.map_append, List.mem_append, List.map_singleton, List.mem_singleton, heq]
      rcases List.mem_append.1 ho' with ho' | ho'
      · rw [or_iff_left (hold ho')]
        exact h.accepts o' ho' htells
      · obtain rfl := List.mem_singleton.1 ho'
        exact iff_of_true (.inr rfl) ((hdecides htells).answer hrun)
  · constructor
    case forms => exact h.forms
    case subset =>
      rw [List.map_append]
      exact List.Subset.trans h.subset (List.subset_append_left _ _)
    case accepts =>
      intro o' ho' htells
      rcases List.mem_append.1 ho' with ho' | ho'
      · exact h.accepts o' ho' htells
      · obtain rfl := List.mem_singleton.1 ho'
        exact iff_of_false (fun hmem => hid (h.subset hmem)) ((hdecides htells).failure hrun)

/-- An operation whose schemas are told is in a model exactly if its payloads are accepted. -/
theorem ofGraph_generates_operation_iff (hids : (operations.map (·.id)).Nodup) {o : Operation} (ho : o ∈ operations)
    (htells : ∀ n ∈ o.schemas, g.Tells operations n) :
    o.id ∈ (Model.ofGraph g operations target config).operations.map (·.id) ↔
      ∀ n ∈ o.schemas, (operationContext g target config).Accepts n := by
  have hnone : (assembled g target config).model.operations = [] := (foldl_commit (kept g target config) _).2.2.1
  rw [ofGraph_eq]
  have hjudges : Assembly.Judges g operations target config operations
      (lowerOperations (operationContext g target config) (assembled g target config) operations) := by
    refine lowerOperations_run (I := fun before a => before ⊆ operations → (before.map (·.id)).Nodup →
      Assembly.Judges g operations target config before a) ?_ operations [] (assembled g target config)
      (fun _ _ => ⟨assembled_forms hg, by simp [hnone], by simp⟩) (List.Subset.refl _) hids
    intro before o a a' h hstep hbefore hnodup
    rw [List.map_append, List.nodup_append] at hnodup
    have hlast : o ∈ operations := hbefore (List.mem_append_right _ List.mem_cons_self)
    refine Assembly.Step.judges hg hlast (fun hmem => ?_)
      (h (List.Subset.trans (List.subset_append_left _ _) hbefore) hnodup.1) hstep
    exact hnodup.2.2 _ hmem _ List.mem_cons_self rfl
  exact hjudges.accepts o ho htells

end Coherent

end Lowering

end ContractBindings
